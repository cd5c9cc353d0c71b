/-
Interpose.Proofs.Wire.RoundTrip — every message is decoded as it was encoded.

So a field that is absent and one that holds what fields hold by default are
told apart wherever a record tells them apart: an application of any user
from one of user 0, no scope from an empty one, no change from a change to a
module without a name. And bytes that were written in some other way, with
fields twice, in another order or unknown, stand for a value that has bytes
of its own, from which it is decoded again.

Main statement: `messageTypes_roundTrip`.
-/
import Interpose.Exchange.Messages
import Interpose.Proofs.Wire.Messages

namespace Interpose

namespace Wire

variable {α : Type} {c : Codec α}

/-- What is kept of every value of a codec. A message of 2^64 bytes could not
tell its length, and no string of bytes has 2^63 of them or more. -/
structure Codec.RoundTrips (c : Codec α) : Prop where
  decode_encode : ∀ a, (c.encode a).length < UInt64.size → c.decode (c.encode a) = some a
  /-- What is not the same is not written the same. -/
  encode_injective : ∀ a b, (c.encode a).length < UInt64.size → c.encode a = c.encode b → a = b
  /-- A value that was decoded from any bytes is decoded from its own. -/
  decode_encode_decode : ∀ bs a, bs.length < Nat.pow 2 63 → c.decode bs = some a →
    c.decode (c.encode a) = some a

theorem Codec.Faithful.roundTrips {depth : Nat} (hc : c.Faithful depth) (hg : c.Grows)
    (hdepth : depth ≤ nesting) : c.RoundTrips where
  decode_encode _ := hc.decode_encode hdepth
  encode_injective a b ha heq := by
    have hb : (c.encode b).length < UInt64.size := heq ▸ ha
    have hdecoded := hc.decode_encode hdepth ha
    rw [heq, hc.decode_encode hdepth hb] at hdecoded
    exact (Option.some.inj hdecoded).symm
  decode_encode_decode bs a hbs h := by
    have hlength := hg.length_encode h
    have hdouble : 2 * bs.length < 2 * Nat.pow 2 63 := Nat.mul_lt_mul_of_pos_left hbs (by decide)
    exact hc.decode_encode hdepth (Nat.lt_of_le_of_lt hlength hdouble)

end Wire

namespace Exchange

open Wire

/-- The names of all message types. -/
def messageTypes : List String := [
  "Timestamp", "AppDescriptor", "ScopeTarget", "Scope", "EntryPoint", "ModuleInfo", "Diagnostic",
  "LogEntry", "SessionSummary",
  "QueryScopeRequest", "QueryScopeResponse", "RegisterSessionRequest", "RegisterSessionResponse",
  "ReportFailureRequest", "Ack", "HeartbeatRequest", "HeartbeatResponse",
  "ListSessionsRequest", "ListSessionsResponse", "GetRegistryRequest", "RegistrySnapshot",
  "ModuleRef", "SetScope", "SetPriority", "MutateRegistryRequest", "MutateRegistryResponse",
  "WatchRequest", "WatchEvent", "ReadLogRequest", "ReadLogResponse", "StatusRequest",
  "StatusResponse"]

/-- A message type that has a form, and whose codec keeps its values. -/
def Kept (name : String) : Prop := ∃ f, form? name = some f ∧ f.form.codec.RoundTrips

theorem Kept.of_faithful {name : String} {α : Type} {f : Form α} {depth : Nat}
    (hname : form? name = some ⟨α, f⟩) (hc : f.codec.Faithful depth) (hg : f.codec.Grows)
    (hdepth : depth ≤ Codec.nesting) : Kept name :=
  ⟨_, hname, hc.roundTrips hg hdepth⟩

/-- **Every message is decoded as it was encoded**, whatever its type, and again after
it was decoded from any other bytes. -/
theorem messageTypes_roundTrip :
    ∀ name ∈ messageTypes, ∃ f, form? name = some f ∧ f.form.codec.RoundTrips := by
  have hkept : ∀ name ∈ messageTypes, Kept name := by
    simp only [messageTypes, List.forall_mem_cons]
    exact ⟨
      .of_faithful rfl timestamp_faithful timestamp_grows (by decide),
      .of_faithful rfl appDescriptor_faithful appDescriptor_grows (by decide),
      .of_faithful rfl scopeTarget_faithful scopeTarget_grows (by decide),
      .of_faithful rfl scope_faithful scope_grows (by decide),
      .of_faithful rfl entryPoint_faithful entryPoint_grows (by decide),
      .of_faithful rfl moduleInfo_faithful moduleInfo_grows (by decide),
      .of_faithful rfl diagnostic_faithful diagnostic_grows (by decide),
      .of_faithful rfl logEntry_faithful logEntry_grows (by decide),
      .of_faithful rfl sessionSummary_faithful sessionSummary_grows (by decide),
      .of_faithful rfl scopeQuery_faithful scopeQuery_grows (by decide),
      .of_faithful rfl scopeAnswer_faithful scopeAnswer_grows (by decide),
      .of_faithful rfl registration_faithful registration_grows (by decide),
      .of_faithful rfl registrationAnswer_faithful registrationAnswer_grows (by decide),
      .of_faithful rfl failureReport_faithful failureReport_grows (by decide),
      .of_faithful rfl ack_faithful ack_grows (by decide),
      .of_faithful rfl heartbeat_faithful heartbeat_grows (by decide),
      .of_faithful rfl heartbeatAnswer_faithful heartbeatAnswer_grows (by decide),
      .of_faithful rfl ask_faithful ask_grows (by decide),
      .of_faithful rfl sessionList_faithful sessionList_grows (by decide),
      .of_faithful rfl ask_faithful ask_grows (by decide),
      .of_faithful rfl registryListing_faithful registryListing_grows (by decide),
      .of_faithful rfl moduleRef_faithful moduleRef_grows (by decide),
      .of_faithful rfl scopeEdit_faithful scopeEdit_grows (by decide),
      .of_faithful rfl priorityEdit_faithful priorityEdit_grows (by decide),
      .of_faithful rfl mutationRequest_faithful mutationRequest_grows (by decide),
      .of_faithful rfl mutationAnswer_faithful mutationAnswer_grows (by decide),
      .of_faithful rfl watchRequest_faithful watchRequest_grows (by decide),
      .of_faithful rfl watchEvent_faithful watchEvent_grows (by decide),
      .of_faithful rfl logQuery_faithful logQuery_grows (by decide),
      .of_faithful rfl logPage_faithful logPage_grows (by decide),
      .of_faithful rfl ask_faithful ask_grows (by decide),
      .of_faithful rfl daemonStatus_faithful daemonStatus_grows (by decide),
      nofun⟩
  exact hkept

/-- To enable a module without a name is told apart from no change at all; and it is
read from bytes that write out the empty name as well as from its own, which do not. -/
theorem messageTypes_roundTrip_unnamed :
    let c := mutationForm.codec
    let enable : MutationRequest := { op := some (.enable {}) }
    "MutateRegistryRequest" ∈ messageTypes ∧ c.RoundTrips ∧
      c.encode enable = [26, 0] ∧ c.decode [26, 0] = some enable ∧
      c.encode {} = [] ∧ c.decode [] = some {} ∧
      c.decode [26, 2, 10, 0] = some enable := by
  intro c enable
  obtain ⟨f, hf, hc⟩ := messageTypes_roundTrip "MutateRegistryRequest" (by decide)
  cases (show form? "MutateRegistryRequest" = some ⟨_, mutationForm⟩ from rfl).symm.trans hf
  have hbytes : c.encode enable = [26, 0] := by decide +kernel
  have hnone : c.encode {} = [] := rfl
  have hsize : ∀ bs : List UInt8, bs.length ≤ 2 → bs.length < UInt64.size := fun _ h =>
    Nat.lt_of_le_of_lt h (by decide)
  refine ⟨by decide, hc, hbytes, ?_, hnone, ?_, by decide +kernel⟩
  · exact hbytes ▸ hc.decode_encode enable (hsize _ (by rw [hbytes]; decide))
  · exact hc.decode_encode {} (hsize _ (by rw [hnone]; decide))

end Exchange

end Interpose
