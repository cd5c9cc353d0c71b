/-
Interpose.Proofs.Wire.Messages — every message survives the wire.

Each message has its chain: the records that its fields make one after
another, from the empty one to the one that was written. A message that
holds others has to leave them room to nest, and how deep it nests itself is
told with it. Where a record may be absent, and where there are
alternatives, which of them is there decides into which record the later
fields are taken, so that there is a chain for each.

And each message grows by no more than its fields do, every one of which
leaves the others as they are. An alternative leaves none of the others.

Main statement: `decode_encode_scopeAnswer`; `Interpose.Proofs.Wire.RoundTrip`
says the same of all message types.
-/
import Interpose.Wire.Messages
import Interpose.Proofs.Wire.Growth

namespace Interpose.Wire

open FieldCodec

/-! ## Shared records -/

theorem timestamp_wellFormed : timestamp.WellFormed := .of_numbers (by decide) (by simp [timestamp])

theorem timestamp_faithful : timestamp.Faithful 0 :=
  .of_chain timestamp_wellFormed fun _ _ _ =>
    .cons (scalar_takes Scalar.int64_faithful rfl)
    (.cons (scalar_takes Scalar.int32_faithful rfl) .nil)

theorem timestamp_grows : timestamp.Grows := .of_fields timestamp_wellFormed rfl <| by
  simp only [timestamp, List.forall_mem_cons]
  exact ⟨scalar_grows Scalar.int64_grows (fun _ _ => rfl) fun _ _ => Nat.le_refl _,
    scalar_grows Scalar.int32_grows (fun _ _ => rfl) fun _ _ => Nat.le_refl _, nofun⟩

theorem appDescriptor_wellFormed : appDescriptor.WellFormed :=
  .of_numbers (by decide) (by simp [appDescriptor])

theorem appDescriptor_faithful : appDescriptor.Faithful 0 :=
  .of_chain appDescriptor_wellFormed fun _ _ _ =>
    .cons (text_takes rfl) (.cons (scalar_takes Scalar.uint32_faithful rfl)
    (.cons (text_takes rfl) .nil))

theorem appDescriptor_grows : appDescriptor.Grows := .of_fields appDescriptor_wellFormed rfl <| by
  simp only [appDescriptor, List.forall_mem_cons]
  exact ⟨text_grows (fun _ _ => rfl) fun _ _ => Nat.le_refl _,
    scalar_grows Scalar.uint32_grows (fun _ _ => rfl) fun _ _ => Nat.le_refl _,
    text_grows (fun _ _ => rfl) fun _ _ => Nat.le_refl _, nofun⟩

theorem scopeTarget_wellFormed : scopeTarget.WellFormed :=
  .of_numbers (by decide) (by simp [scopeTarget])

theorem scopeTarget_faithful : scopeTarget.Faithful 0 :=
  .of_chain scopeTarget_wellFormed fun _ _ a => by
    obtain ⟨_, _ | _⟩ := a
    all_goals
      exact .cons (text_takes rfl) (.cons (optional_takes Scalar.uint32_faithful) .nil)

theorem scopeTarget_grows : scopeTarget.Grows := .of_fields scopeTarget_wellFormed rfl <| by
  simp only [scopeTarget, List.forall_mem_cons]
  exact ⟨text_grows (fun _ _ => rfl) fun _ _ => Nat.le_refl _,
    optional_grows Scalar.uint32_grows (fun _ _ => rfl) fun _ _ => Nat.le_refl _, nofun⟩

theorem scope_wellFormed : scope.WellFormed := .of_numbers (by decide) (by simp [scope])

theorem scope_faithful : scope.Faithful 1 :=
  .of_chain scope_wellFormed fun _ hlimit _ =>
    .cons (scalar_takes Scalar.bool_faithful rfl)
    (.cons (messages_takes scopeTarget_faithful hlimit (fun _ _ => rfl) (fun _ _ _ => rfl) rfl)
      .nil)

theorem scope_grows : scope.Grows := .of_fields scope_wellFormed rfl <| by
  simp only [scope, List.forall_mem_cons]
  exact ⟨scalar_grows Scalar.bool_grows (fun _ _ => rfl) fun _ _ => Nat.le_refl _,
    messages_grows scopeTarget_grows (fun _ _ => rfl) fun _ _ => Nat.le_refl _, nofun⟩

theorem entryPoint_wellFormed : entryPoint.WellFormed :=
  .of_numbers (by decide) (by simp [entryPoint])

theorem entryPoint_faithful : entryPoint.Faithful 0 :=
  .of_chain entryPoint_wellFormed fun _ _ _ =>
    .cons (text_takes rfl) (.cons (text_takes rfl) .nil)

theorem entryPoint_grows : entryPoint.Grows := .of_fields entryPoint_wellFormed rfl <| by
  simp only [entryPoint, List.forall_mem_cons]
  exact ⟨text_grows (fun _ _ => rfl) fun _ _ => Nat.le_refl _,
    text_grows (fun _ _ => rfl) fun _ _ => Nat.le_refl _, nofun⟩

theorem moduleInfo_wellFormed : moduleInfo.WellFormed :=
  .of_numbers (by decide) (by simp [moduleInfo])

theorem moduleInfo_faithful : moduleInfo.Faithful 2 :=
  .of_chain moduleInfo_wellFormed fun _ hlimit a => by
    obtain ⟨_, _, _ | _, _, _, _⟩ := a
    all_goals
      exact .cons (text_takes rfl) (.cons (scalar_takes Scalar.bool_faithful rfl)
        (.cons (message_takes scope_faithful hlimit rfl)
        (.cons (messages_takes entryPoint_faithful (by omega) (fun _ _ => rfl) (fun _ _ _ => rfl)
          rfl)
        (.cons (scalar_takes Scalar.int32_faithful rfl)
        (.cons (scalar_takes Scalar.uint64_faithful rfl) .nil)))))

theorem moduleInfo_grows : moduleInfo.Grows := .of_fields moduleInfo_wellFormed rfl <| by
  simp only [moduleInfo, List.forall_mem_cons]
  exact ⟨text_grows (fun _ _ => rfl) fun _ _ => Nat.le_refl _,
    scalar_grows Scalar.bool_grows (fun _ _ => rfl) fun _ _ => Nat.le_refl _,
    message_grows scope_grows (fun _ _ => rfl) fun _ _ => Nat.le_refl _,
    messages_grows entryPoint_grows (fun _ _ => rfl) fun _ _ => Nat.le_refl _,
    scalar_grows Scalar.int32_grows (fun _ _ => rfl) fun _ _ => Nat.le_refl _,
    scalar_grows Scalar.uint64_grows (fun _ _ => rfl) fun _ _ => Nat.le_refl _, nofun⟩

theorem diagnostic_wellFormed : diagnostic.WellFormed :=
  .of_numbers (by decide) (by simp [diagnostic])

theorem diagnostic_faithful : diagnostic.Faithful 0 :=
  .of_chain diagnostic_wellFormed fun _ _ _ =>
    .cons (scalar_takes Scalar.int32_faithful rfl) (.cons (text_takes rfl)
    (.cons (text_takes rfl) .nil))

theorem diagnostic_grows : diagnostic.Grows := .of_fields diagnostic_wellFormed rfl <| by
  simp only [diagnostic, List.forall_mem_cons]
  exact ⟨scalar_grows Scalar.int32_grows (fun _ _ => rfl) fun _ _ => Nat.le_refl _,
    text_grows (fun _ _ => rfl) fun _ _ => Nat.le_refl _,
    text_grows (fun _ _ => rfl) fun _ _ => Nat.le_refl _, nofun⟩

theorem logEntry_wellFormed : logEntry.WellFormed := .of_numbers (by decide) (by simp [logEntry])

theorem logEntry_faithful : logEntry.Faithful 1 :=
  .of_chain logEntry_wellFormed fun _ hlimit a => by
    obtain ⟨_, _ | _, _, _, _, _⟩ := a
    all_goals
      exact .cons (scalar_takes Scalar.int64_faithful rfl)
        (.cons (message_takes timestamp_faithful hlimit rfl)
        (.cons (scalar_takes Scalar.uint32_faithful rfl) (.cons (text_takes rfl)
        (.cons (scalar_takes Scalar.int32_faithful rfl) (.cons (text_takes rfl) .nil)))))

theorem logEntry_grows : logEntry.Grows := .of_fields logEntry_wellFormed rfl <| by
  simp only [logEntry, List.forall_mem_cons]
  exact ⟨scalar_grows Scalar.int64_grows (fun _ _ => rfl) fun _ _ => Nat.le_refl _,
    message_grows timestamp_grows (fun _ _ => rfl) fun _ _ => Nat.le_refl _,
    scalar_grows Scalar.uint32_grows (fun _ _ => rfl) fun _ _ => Nat.le_refl _,
    text_grows (fun _ _ => rfl) fun _ _ => Nat.le_refl _,
    scalar_grows Scalar.int32_grows (fun _ _ => rfl) fun _ _ => Nat.le_refl _,
    text_grows (fun _ _ => rfl) fun _ _ => Nat.le_refl _, nofun⟩

theorem sessionSummary_wellFormed : sessionSummary.WellFormed :=
  .of_numbers (by decide) (by simp [sessionSummary])

theorem sessionSummary_faithful : sessionSummary.Faithful 1 :=
  .of_chain sessionSummary_wellFormed fun _ hlimit a => by
    obtain ⟨_, _ | _, _, _, _ | _, _ | _, _, _⟩ := a
    all_goals
      exact .cons (scalar_takes Scalar.uint32_faithful rfl)
        (.cons (message_takes appDescriptor_faithful hlimit rfl)
        (.cons (texts_takes (fun _ _ => rfl) (fun _ _ _ => rfl) rfl)
        (.cons (scalar_takes Scalar.uint64_faithful rfl)
        (.cons (message_takes timestamp_faithful hlimit rfl)
        (.cons (message_takes timestamp_faithful hlimit rfl)
        (.cons (texts_takes (fun _ _ => rfl) (fun _ _ _ => rfl) rfl)
        (.cons (texts_takes (fun _ _ => rfl) (fun _ _ _ => rfl) rfl) .nil)))))))

theorem sessionSummary_grows : sessionSummary.Grows :=
  .of_fields sessionSummary_wellFormed rfl <| by
    simp only [sessionSummary, List.forall_mem_cons]
    exact ⟨scalar_grows Scalar.uint32_grows (fun _ _ => rfl) fun _ _ => Nat.le_refl _,
      message_grows appDescriptor_grows (fun _ _ => rfl) fun _ _ => Nat.le_refl _,
      texts_grows (fun _ _ => rfl) fun _ _ => Nat.le_refl _,
      scalar_grows Scalar.uint64_grows (fun _ _ => rfl) fun _ _ => Nat.le_refl _,
      message_grows timestamp_grows (fun _ _ => rfl) fun _ _ => Nat.le_refl _,
      message_grows timestamp_grows (fun _ _ => rfl) fun _ _ => Nat.le_refl _,
      texts_grows (fun _ _ => rfl) fun _ _ => Nat.le_refl _,
      texts_grows (fun _ _ => rfl) fun _ _ => Nat.le_refl _, nofun⟩

/-! ## Calls of a process -/

theorem scopeQuery_wellFormed : scopeQuery.WellFormed :=
  .of_numbers (by decide) (by simp [scopeQuery])

theorem scopeQuery_faithful : scopeQuery.Faithful 1 :=
  .of_chain scopeQuery_wellFormed fun _ hlimit a => by
    obtain ⟨_ | _⟩ := a
    all_goals
      exact .cons (message_takes appDescriptor_faithful hlimit rfl) .nil

theorem scopeQuery_grows : scopeQuery.Grows := .of_fields scopeQuery_wellFormed rfl <| by
  simp only [scopeQuery, List.forall_mem_cons]
  exact ⟨message_grows appDescriptor_grows (fun _ _ => rfl) fun _ _ => Nat.le_refl _, nofun⟩

theorem scopeAnswer_wellFormed : scopeAnswer.WellFormed :=
  .of_numbers (by decide) (by simp [scopeAnswer])

theorem scopeAnswer_faithful : scopeAnswer.Faithful 3 :=
  .of_chain scopeAnswer_wellFormed fun _ hlimit _ =>
    .cons (scalar_takes Scalar.uint64_faithful rfl)
    (.cons (messages_takes moduleInfo_faithful hlimit (fun _ _ => rfl) (fun _ _ _ => rfl) rfl) .nil)

theorem scopeAnswer_grows : scopeAnswer.Grows := .of_fields scopeAnswer_wellFormed rfl <| by
  simp only [scopeAnswer, List.forall_mem_cons]
  exact ⟨scalar_grows Scalar.uint64_grows (fun _ _ => rfl) fun _ _ => Nat.le_refl _,
    messages_grows moduleInfo_grows (fun _ _ => rfl) fun _ _ => Nat.le_refl _, nofun⟩

theorem registration_wellFormed : registration.WellFormed :=
  .of_numbers (by decide) (by simp [registration])

theorem registration_faithful : registration.Faithful 1 :=
  .of_chain registration_wellFormed fun _ hlimit a => by
    obtain ⟨_, _ | _, _, _, _⟩ := a
    all_goals
      exact .cons (scalar_takes Scalar.uint32_faithful rfl)
        (.cons (message_takes appDescriptor_faithful hlimit rfl)
        (.cons (texts_takes (fun _ _ => rfl) (fun _ _ _ => rfl) rfl)
        (.cons (scalar_takes Scalar.uint64_faithful rfl)
        (.cons (texts_takes (fun _ _ => rfl) (fun _ _ _ => rfl) rfl) .nil))))

theorem registration_grows : registration.Grows := .of_fields registration_wellFormed rfl <| by
  simp only [registration, List.forall_mem_cons]
  exact ⟨scalar_grows Scalar.uint32_grows (fun _ _ => rfl) fun _ _ => Nat.le_refl _,
    message_grows appDescriptor_grows (fun _ _ => rfl) fun _ _ => Nat.le_refl _,
    texts_grows (fun _ _ => rfl) fun _ _ => Nat.le_refl _,
    scalar_grows Scalar.uint64_grows (fun _ _ => rfl) fun _ _ => Nat.le_refl _,
    texts_grows (fun _ _ => rfl) fun _ _ => Nat.le_refl _, nofun⟩

theorem registrationAnswer_wellFormed : registrationAnswer.WellFormed :=
  .of_numbers (by decide) (by simp [registrationAnswer])

theorem registrationAnswer_faithful : registrationAnswer.Faithful 0 :=
  .of_chain registrationAnswer_wellFormed fun _ _ _ =>
    .cons (text_takes rfl) (.cons (scalar_takes Scalar.uint64_faithful rfl) .nil)

theorem registrationAnswer_grows : registrationAnswer.Grows :=
  .of_fields registrationAnswer_wellFormed rfl <| by
    simp only [registrationAnswer, List.forall_mem_cons]
    exact ⟨text_grows (fun _ _ => rfl) fun _ _ => Nat.le_refl _,
      scalar_grows Scalar.uint64_grows (fun _ _ => rfl) fun _ _ => Nat.le_refl _, nofun⟩

theorem failureReport_wellFormed : failureReport.WellFormed :=
  .of_numbers (by decide) (by simp [failureReport])

theorem failureReport_faithful : failureReport.Faithful 1 :=
  .of_chain failureReport_wellFormed fun _ hlimit a => by
    obtain ⟨_, _, _ | _⟩ := a
    all_goals
      exact .cons (scalar_takes Scalar.uint32_faithful rfl) (.cons (text_takes rfl)
        (.cons (message_takes diagnostic_faithful hlimit rfl) .nil))

theorem failureReport_grows : failureReport.Grows := .of_fields failureReport_wellFormed rfl <| by
  simp only [failureReport, List.forall_mem_cons]
  exact ⟨scalar_grows Scalar.uint32_grows (fun _ _ => rfl) fun _ _ => Nat.le_refl _,
    text_grows (fun _ _ => rfl) fun _ _ => Nat.le_refl _,
    message_grows diagnostic_grows (fun _ _ => rfl) fun _ _ => Nat.le_refl _, nofun⟩

theorem ack_wellFormed : ack.WellFormed := .of_numbers (by decide) (by simp [ack])

theorem ack_faithful : ack.Faithful 0 :=
  .of_chain ack_wellFormed fun _ _ _ =>
    .cons (scalar_takes Scalar.uint64_faithful rfl) .nil

theorem ack_grows : ack.Grows := .of_fields ack_wellFormed rfl <| by
  simp only [ack, List.forall_mem_cons]
  exact ⟨scalar_grows Scalar.uint64_grows (fun _ _ => rfl) fun _ _ => Nat.le_refl _, nofun⟩

theorem heartbeat_wellFormed : heartbeat.WellFormed := .of_numbers (by decide) (by simp [heartbeat])

theorem heartbeat_faithful : heartbeat.Faithful 0 :=
  .of_chain heartbeat_wellFormed fun _ _ _ =>
    .cons (scalar_takes Scalar.uint32_faithful rfl) (.cons (text_takes rfl) .nil)

theorem heartbeat_grows : heartbeat.Grows := .of_fields heartbeat_wellFormed rfl <| by
  simp only [heartbeat, List.forall_mem_cons]
  exact ⟨scalar_grows Scalar.uint32_grows (fun _ _ => rfl) fun _ _ => Nat.le_refl _,
    text_grows (fun _ _ => rfl) fun _ _ => Nat.le_refl _, nofun⟩

theorem heartbeatAnswer_wellFormed : heartbeatAnswer.WellFormed :=
  .of_numbers (by decide) (by simp [heartbeatAnswer])

theorem heartbeatAnswer_faithful : heartbeatAnswer.Faithful 0 :=
  .of_chain heartbeatAnswer_wellFormed fun _ _ _ =>
    .cons (scalar_takes Scalar.bool_faithful rfl)
    (.cons (scalar_takes Scalar.uint64_faithful rfl) .nil)

theorem heartbeatAnswer_grows : heartbeatAnswer.Grows :=
  .of_fields heartbeatAnswer_wellFormed rfl <| by
    simp only [heartbeatAnswer, List.forall_mem_cons]
    exact ⟨scalar_grows Scalar.bool_grows (fun _ _ => rfl) fun _ _ => Nat.le_refl _,
      scalar_grows Scalar.uint64_grows (fun _ _ => rfl) fun _ _ => Nat.le_refl _, nofun⟩

/-! ## Calls of a client -/

theorem ask_wellFormed : ask.WellFormed := .of_numbers (by decide) (by simp [ask])

theorem ask_faithful : ask.Faithful 0 :=
  .of_chain ask_wellFormed fun _ _ _ =>
    .nil

theorem ask_grows : ask.Grows := .of_fields ask_wellFormed rfl nofun

theorem sessionList_wellFormed : sessionList.WellFormed :=
  .of_numbers (by decide) (by simp [sessionList])

theorem sessionList_faithful : sessionList.Faithful 2 :=
  .of_chain sessionList_wellFormed fun _ hlimit _ =>
    .cons (scalar_takes Scalar.uint64_faithful rfl)
    (.cons (messages_takes sessionSummary_faithful hlimit (fun _ _ => rfl) (fun _ _ _ => rfl) rfl)
      .nil)

theorem sessionList_grows : sessionList.Grows := .of_fields sessionList_wellFormed rfl <| by
  simp only [sessionList, List.forall_mem_cons]
  exact ⟨scalar_grows Scalar.uint64_grows (fun _ _ => rfl) fun _ _ => Nat.le_refl _,
    messages_grows sessionSummary_grows (fun _ _ => rfl) fun _ _ => Nat.le_refl _, nofun⟩

theorem registryListing_wellFormed : registryListing.WellFormed :=
  .of_numbers (by decide) (by simp [registryListing])

theorem registryListing_faithful : registryListing.Faithful 3 :=
  .of_chain registryListing_wellFormed fun _ hlimit _ =>
    .cons (scalar_takes Scalar.uint64_faithful rfl)
    (.cons (messages_takes moduleInfo_faithful hlimit (fun _ _ => rfl) (fun _ _ _ => rfl) rfl) .nil)

theorem registryListing_grows : registryListing.Grows :=
  .of_fields registryListing_wellFormed rfl <| by
    simp only [registryListing, List.forall_mem_cons]
    exact ⟨scalar_grows Scalar.uint64_grows (fun _ _ => rfl) fun _ _ => Nat.le_refl _,
      messages_grows moduleInfo_grows (fun _ _ => rfl) fun _ _ => Nat.le_refl _, nofun⟩

theorem moduleRef_wellFormed : moduleRef.WellFormed := .of_numbers (by decide) (by simp [moduleRef])

theorem moduleRef_faithful : moduleRef.Faithful 0 :=
  .of_chain moduleRef_wellFormed fun _ _ _ =>
    .cons (text_takes rfl) .nil

theorem moduleRef_grows : moduleRef.Grows := .of_fields moduleRef_wellFormed rfl <| by
  simp only [moduleRef, List.forall_mem_cons]
  exact ⟨text_grows (fun _ _ => rfl) fun _ _ => Nat.le_refl _, nofun⟩

theorem scopeEdit_wellFormed : scopeEdit.WellFormed := .of_numbers (by decide) (by simp [scopeEdit])

theorem scopeEdit_faithful : scopeEdit.Faithful 2 :=
  .of_chain scopeEdit_wellFormed fun _ hlimit a => by
    obtain ⟨_, _, _ | _⟩ := a
    all_goals
      exact .cons (text_takes rfl) (.cons (scalar_takes Scalar.int32_faithful rfl)
        (.cons (message_takes scope_faithful hlimit rfl) .nil))

theorem scopeEdit_grows : scopeEdit.Grows := .of_fields scopeEdit_wellFormed rfl <| by
  simp only [scopeEdit, List.forall_mem_cons]
  exact ⟨text_grows (fun _ _ => rfl) fun _ _ => Nat.le_refl _,
    scalar_grows Scalar.int32_grows (fun _ _ => rfl) fun _ _ => Nat.le_refl _,
    message_grows scope_grows (fun _ _ => rfl) fun _ _ => Nat.le_refl _, nofun⟩

theorem priorityEdit_wellFormed : priorityEdit.WellFormed :=
  .of_numbers (by decide) (by simp [priorityEdit])

theorem priorityEdit_faithful : priorityEdit.Faithful 0 :=
  .of_chain priorityEdit_wellFormed fun _ _ _ =>
    .cons (text_takes rfl) (.cons (scalar_takes Scalar.int32_faithful rfl) .nil)

theorem priorityEdit_grows : priorityEdit.Grows := .of_fields priorityEdit_wellFormed rfl <| by
  simp only [priorityEdit, List.forall_mem_cons]
  exact ⟨text_grows (fun _ _ => rfl) fun _ _ => Nat.le_refl _,
    scalar_grows Scalar.int32_grows (fun _ _ => rfl) fun _ _ => Nat.le_refl _, nofun⟩

theorem mutationRequest_wellFormed : mutationRequest.WellFormed :=
  .of_numbers (by decide) (by simp [mutationRequest])

theorem mutationRequest_faithful : mutationRequest.Faithful 3 :=
  .of_chain mutationRequest_wellFormed fun _ hlimit a => by
    obtain ⟨_ | _ | _ | _ | _ | _ | _⟩ := a
    all_goals
      exact .cons (message_takes moduleInfo_faithful hlimit rfl)
        (.cons (message_takes moduleRef_faithful (by omega) rfl)
        (.cons (message_takes moduleRef_faithful (by omega) rfl)
        (.cons (message_takes moduleRef_faithful (by omega) rfl)
        (.cons (message_takes scopeEdit_faithful hlimit rfl)
        (.cons (message_takes priorityEdit_faithful (by omega) rfl) .nil)))))

theorem mutationRequest_grows : mutationRequest.Grows :=
  .of_fields mutationRequest_wellFormed rfl <| by
    simp only [mutationRequest, List.forall_mem_cons]
    exact ⟨message_grows moduleInfo_grows (fun _ _ => rfl) fun _ _ => Nat.zero_le _,
      message_grows moduleRef_grows (fun _ _ => rfl) fun _ _ => Nat.zero_le _,
      message_grows moduleRef_grows (fun _ _ => rfl) fun _ _ => Nat.zero_le _,
      message_grows moduleRef_grows (fun _ _ => rfl) fun _ _ => Nat.zero_le _,
      message_grows scopeEdit_grows (fun _ _ => rfl) fun _ _ => Nat.zero_le _,
      message_grows priorityEdit_grows (fun _ _ => rfl) fun _ _ => Nat.zero_le _, nofun⟩

theorem mutationAnswer_wellFormed : mutationAnswer.WellFormed :=
  .of_numbers (by decide) (by simp [mutationAnswer])

theorem mutationAnswer_faithful : mutationAnswer.Faithful 3 :=
  .of_chain mutationAnswer_wellFormed fun _ hlimit a => by
    obtain ⟨_, _ | _⟩ := a
    all_goals
      exact .cons (scalar_takes Scalar.uint64_faithful rfl)
        (.cons (message_takes moduleInfo_faithful hlimit rfl) .nil)

theorem mutationAnswer_grows : mutationAnswer.Grows :=
  .of_fields mutationAnswer_wellFormed rfl <| by
    simp only [mutationAnswer, List.forall_mem_cons]
    exact ⟨scalar_grows Scalar.uint64_grows (fun _ _ => rfl) fun _ _ => Nat.le_refl _,
      message_grows moduleInfo_grows (fun _ _ => rfl) fun _ _ => Nat.le_refl _, nofun⟩

theorem watchRequest_wellFormed : watchRequest.WellFormed :=
  .of_numbers (by decide) (by simp [watchRequest])

theorem watchRequest_faithful : watchRequest.Faithful 0 :=
  .of_chain watchRequest_wellFormed fun _ _ _ =>
    .cons (scalar_takes Scalar.bool_faithful rfl) .nil

theorem watchRequest_grows : watchRequest.Grows := .of_fields watchRequest_wellFormed rfl <| by
  simp only [watchRequest, List.forall_mem_cons]
  exact ⟨scalar_grows Scalar.bool_grows (fun _ _ => rfl) fun _ _ => Nat.le_refl _, nofun⟩

theorem watchEvent_wellFormed : watchEvent.WellFormed :=
  .of_numbers (by decide) (by simp [watchEvent])

theorem watchEvent_faithful : watchEvent.Faithful 2 :=
  .of_chain watchEvent_wellFormed fun _ hlimit a => by
    obtain ⟨_ | _ | _⟩ := a
    all_goals
      exact .cons (optional_takes Scalar.uint64_faithful)
        (.cons (message_takes logEntry_faithful hlimit rfl) .nil)

theorem watchEvent_grows : watchEvent.Grows := .of_fields watchEvent_wellFormed rfl <| by
  simp only [watchEvent, List.forall_mem_cons]
  exact ⟨optional_grows Scalar.uint64_grows (fun _ _ => rfl) fun _ _ => Nat.zero_le _,
    message_grows logEntry_grows (fun _ _ => rfl) fun _ _ => Nat.zero_le _, nofun⟩

theorem logQuery_wellFormed : logQuery.WellFormed := .of_numbers (by decide) (by simp [logQuery])

theorem logQuery_faithful : logQuery.Faithful 0 :=
  .of_chain logQuery_wellFormed fun _ _ _ =>
    .cons (scalar_takes Scalar.uint32_faithful rfl)
    (.cons (scalar_takes Scalar.int64_faithful rfl) .nil)

theorem logQuery_grows : logQuery.Grows := .of_fields logQuery_wellFormed rfl <| by
  simp only [logQuery, List.forall_mem_cons]
  exact ⟨scalar_grows Scalar.uint32_grows (fun _ _ => rfl) fun _ _ => Nat.le_refl _,
    scalar_grows Scalar.int64_grows (fun _ _ => rfl) fun _ _ => Nat.le_refl _, nofun⟩

theorem logPage_wellFormed : logPage.WellFormed := .of_numbers (by decide) (by simp [logPage])

theorem logPage_faithful : logPage.Faithful 2 :=
  .of_chain logPage_wellFormed fun _ hlimit _ =>
    .cons (messages_takes logEntry_faithful hlimit (fun _ _ => rfl) (fun _ _ _ => rfl) rfl) .nil

theorem logPage_grows : logPage.Grows := .of_fields logPage_wellFormed rfl <| by
  simp only [logPage, List.forall_mem_cons]
  exact ⟨messages_grows logEntry_grows (fun _ _ => rfl) fun _ _ => Nat.le_refl _, nofun⟩

theorem daemonStatus_wellFormed : daemonStatus.WellFormed :=
  .of_numbers (by decide) (by simp [daemonStatus])

theorem daemonStatus_faithful : daemonStatus.Faithful 1 :=
  .of_chain daemonStatus_wellFormed fun _ hlimit a => by
    obtain ⟨_, _, _, _, _, _, _ | _⟩ := a
    all_goals
      exact .cons (text_takes rfl) (.cons (scalar_takes Scalar.uint64_faithful rfl)
        (.cons (scalar_takes Scalar.uint32_faithful rfl)
        (.cons (scalar_takes Scalar.uint32_faithful rfl)
        (.cons (scalar_takes Scalar.uint32_faithful rfl) (.cons (text_takes rfl)
        (.cons (message_takes timestamp_faithful hlimit rfl) .nil))))))

theorem daemonStatus_grows : daemonStatus.Grows := .of_fields daemonStatus_wellFormed rfl <| by
  simp only [daemonStatus, List.forall_mem_cons]
  exact ⟨text_grows (fun _ _ => rfl) fun _ _ => Nat.le_refl _,
    scalar_grows Scalar.uint64_grows (fun _ _ => rfl) fun _ _ => Nat.le_refl _,
    scalar_grows Scalar.uint32_grows (fun _ _ => rfl) fun _ _ => Nat.le_refl _,
    scalar_grows Scalar.uint32_grows (fun _ _ => rfl) fun _ _ => Nat.le_refl _,
    scalar_grows Scalar.uint32_grows (fun _ _ => rfl) fun _ _ => Nat.le_refl _,
    text_grows (fun _ _ => rfl) fun _ _ => Nat.le_refl _,
    message_grows timestamp_grows (fun _ _ => rfl) fun _ _ => Nat.le_refl _, nofun⟩

/-! ## Answers -/

/-- **An answer is received as it was given**, if it is not too long to tell its length. -/
theorem decode_encode_scopeAnswer {a : ScopeAnswer}
    (hsize : (scopeAnswer.encode a).length < UInt64.size) :
    scopeAnswer.decode (scopeAnswer.encode a) = some a :=
  scopeAnswer_faithful.decode_encode (by decide) hsize

end Interpose.Wire
