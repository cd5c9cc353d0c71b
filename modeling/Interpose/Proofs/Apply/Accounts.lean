/-
Interpose.Proofs.Apply.Accounts — why modules end as they do.

The entry points of a module are taken one after the other, up to the first
that does not complete. So how a module ends is settled at one entry point,
those before it having completed (`EntriesEnd.Reason`), and there are five
ways: its code cannot be loaded, or panics as it is loaded, or its callback
completes, fails or panics. All but one of them end the module alone. A
panic at loading ends everything.

A list of modules that comes to a report accounts for each of them; one that
does not has come to a load that panicked (`Accounts`,
`applyEach_accounts`).
-/
import Mathlib
import Interpose.Apply

namespace Interpose

variable {ν σ : Type}

/-! ## Entry points -/

/-- Whom the callbacks of a module work for. -/
def ModuleInfo.context (m : ModuleInfo) (app : AppDescriptor) : HookContext where
  moduleId := m.moduleId
  priority := m.priority
  app

/-- An entry point is loaded, and its callback comes to such an end. -/
def EntryPoint.Ends (loader : Loader ν) (ctx : HookContext) (e : EntryPoint) (ended : InitEnd) :
    Prop :=
  ∃ init p r q, loader e = .ready init ∧
    ctx.run (Host.enter Host.callDepth) init {} p = some ((ended, r), q)

/-- An entry point at which its module is dropped, for such a reason. -/
inductive EntryPoint.Fails (loader : Loader ν) (ctx : HookContext) (e : EntryPoint) :
    ModuleFailure → Prop
  | load {err : LoadError} (h : loader e = .refused err) : e.Fails loader ctx (.load e.codePath err)
  | init {chain : List String} (h : e.Ends loader ctx (.failed chain)) :
      e.Fails loader ctx (.init chain)
  | panic {message : Option String} (h : e.Ends loader ctx (.panicked message)) :
      e.Fails loader ctx (.panic message)

/-- Why entry points end as they do. Those before the last that was taken have
completed. -/
inductive EntriesEnd.Reason (loader : Loader ν) (ctx : HookContext) :
    List EntryPoint → EntriesEnd → Prop
  | completed {es : List EntryPoint} (h : ∀ e ∈ es, e.Ends loader ctx .completed) :
      Reason loader ctx es .completed
  | failed (es : List EntryPoint) {after : List EntryPoint} {e : EntryPoint} {why : ModuleFailure}
      (before : ∀ x ∈ es, x.Ends loader ctx .completed) (h : e.Fails loader ctx why) :
      Reason loader ctx (es ++ e :: after) (.failed why)
  | unwound (es : List EntryPoint) {after : List EntryPoint} {e : EntryPoint}
      {message : Option String}
      (before : ∀ x ∈ es, x.Ends loader ctx .completed) (h : loader e = .panicked message) :
      Reason loader ctx (es ++ e :: after) (.unwound message)

/-- One more entry point may have completed before the others. -/
theorem EntriesEnd.Reason.cons {loader : Loader ν} {ctx : HookContext} {e : EntryPoint}
    {es : List EntryPoint} {ended : EntriesEnd} (he : e.Ends loader ctx .completed)
    (h : Reason loader ctx es ended) : Reason loader ctx (e :: es) ended := by
  cases h with
  | completed h => exact .completed (List.forall_mem_cons.mpr ⟨he, h⟩)
  | failed es before h => exact .failed (e :: es) (List.forall_mem_cons.mpr ⟨he, before⟩) h
  | unwound es before h => exact .unwound (e :: es) (List.forall_mem_cons.mpr ⟨he, before⟩) h

/-- A module that is applied: it has entry points, and all of them complete. -/
def ModuleInfo.Completes (loader : Loader ν) (app : AppDescriptor) (m : ModuleInfo) : Prop :=
  m.entryPoints ≠ [] ∧ EntriesEnd.Reason loader (m.context app) m.entryPoints .completed

/-- A module that is dropped for such a reason: it has no entry point, or one that fails. -/
def ModuleInfo.Drops (loader : Loader ν) (app : AppDescriptor) (m : ModuleInfo)
    (why : ModuleFailure) : Prop :=
  m.entryPoints = [] ∧ why = .noEntryPoints ∨
    EntriesEnd.Reason loader (m.context app) m.entryPoints (.failed why)

/-- A module that panics as it is loaded. -/
def ModuleInfo.Unwinds (loader : Loader ν) (app : AppDescriptor) (m : ModuleInfo)
    (message : Option String) : Prop :=
  EntriesEnd.Reason loader (m.context app) m.entryPoints (.unwound message)

theorem ModuleInfo.Unwinds.panics {loader : Loader ν} {app : AppDescriptor} {m : ModuleInfo}
    {message : Option String} (h : m.Unwinds loader app message) :
    ∃ e ∈ m.entryPoints, loader e = .panicked message := by
  rw [Unwinds] at h
  generalize m.entryPoints = es at h
  cases h with
  | @unwound es _ e _ _ h =>
    exact ⟨e, List.mem_append_right es List.mem_cons_self, h⟩

namespace Host

variable {loader : Loader ν} {app : AppDescriptor} {m : ModuleInfo} {s s' : σ} {p q : Host ν}

/-- **There are no other ends for entry points.** -/
theorem runEntries_reason {ctx : HookContext} {es : List EntryPoint} {r : InitRecord}
    {a : ((EntriesEnd × InitRecord) × σ) × Host ν}
    (h : runEntries ctx loader.source es r s p = some a) :
    EntriesEnd.Reason loader ctx es a.1.1.1 := by
  induction es generalizing r p with
  | nil =>
    cases h
    exact .completed fun _ he => absurd he List.not_mem_nil
  | cons e es ih =>
    unfold runEntries Loader.source at h
    cases hload : loader e with
    | refused err =>
      rw [hload] at h
      cases h
      exact .failed [] (fun _ hx => absurd hx List.not_mem_nil) (.load hload)
    | panicked message =>
      rw [hload] at h
      cases h
      exact .unwound [] (fun _ hx => absurd hx List.not_mem_nil) hload
    | ready init =>
      rw [hload] at h
      obtain ⟨⟨⟨ended, mine⟩, q⟩, hrun, ha⟩ := Option.bind_eq_some_iff.mp h
      have hends : e.Ends loader ctx ended := ⟨init, p, mine, q, hload, hrun⟩
      cases ended with
      | completed => exact (ih ha).cons hends
      | failed chain =>
        cases ha
        exact .failed [] (fun _ hx => absurd hx List.not_mem_nil) (.init hends)
      | panicked message =>
        cases ha
        exact .failed [] (fun _ hx => absurd hx List.not_mem_nil) (.panic hends)

/-! ## Modules -/

theorem applyModule_completes {hs : List HookHandle} {ds : List Diagnostic}
    (h : applyModule loader.source app m s p = some ((.applied hs ds, s'), q)) :
    m.Completes loader app := by
  unfold applyModule at h
  split at h
  · cases h
  · rename_i hne
    obtain ⟨⟨⟨⟨ended, r⟩, s₁⟩, q₁⟩, hrun, heq⟩ := Option.map_eq_some_iff.mp h
    cases ended with
    | completed => exact ⟨by simpa using hne, runEntries_reason hrun⟩
    | failed why => cases heq
    | unwound message => cases heq

theorem applyModule_drops {why : ModuleFailure}
    (h : applyModule loader.source app m s p = some ((.dropped why, s'), q)) :
    m.Drops loader app why := by
  unfold applyModule at h
  split at h
  · rename_i hnone
    cases h
    exact .inl ⟨List.isEmpty_iff.mp hnone, rfl⟩
  · obtain ⟨⟨⟨⟨ended, r⟩, s₁⟩, q₁⟩, hrun, heq⟩ := Option.map_eq_some_iff.mp h
    cases ended with
    | completed => cases heq
    | failed why =>
      cases heq
      exact .inr (runEntries_reason hrun)
    | unwound message => cases heq

theorem applyModule_unwinds {message : Option String}
    (h : applyModule loader.source app m s p = some ((.unwound message, s'), q)) :
    m.Unwinds loader app message := by
  unfold applyModule at h
  split at h
  · cases h
  · obtain ⟨⟨⟨⟨ended, r⟩, s₁⟩, q₁⟩, hrun, heq⟩ := Option.map_eq_some_iff.mp h
    cases ended with
    | completed => cases heq
    | failed why => cases heq
    | unwound message =>
      cases heq
      exact runEntries_reason hrun

/-- What applying the first module of a list leaves to be done. -/
theorem applyEach_cons_cases {source : Source ν σ} {m : ModuleInfo} {ms : List ModuleInfo}
    {session : ProcessSession} {r : ApplyReport} {s : σ} {p : Host ν}
    {a : ((ApplyEnd × ProcessSession) × σ) × Host ν}
    (h : applyEach source (m :: ms) session r s p = some a) :
    session.isApplied m.moduleId = true ∧ applyEach source ms session r s p = some a ∨
    (∃ hs ds s' q, applyModule source session.app m s p = some ((.applied hs ds, s'), q) ∧
      applyEach source ms
        (session.pushApplied { moduleId := m.moduleId, priority := m.priority, handles := hs })
        { r with
          applied := r.applied ++ [m.moduleId]
          diagnostics := r.diagnostics ++ ds.map ({ moduleId := m.moduleId, diagnostic := · }) }
        s' q = some a) ∨
    (∃ why s' q, applyModule source session.app m s p = some ((.dropped why, s'), q) ∧
      applyEach source ms (session.pushFailed m.moduleId)
        { r with failed := r.failed ++
            [{ moduleId := m.moduleId
               diagnostic := Diagnostic.of .moduleLoadFailure why.detail }] }
        s' q = some a) ∨
    ∃ message s' q, applyModule source session.app m s p = some ((.unwound message, s'), q) ∧
      a = (((.unwound message, session), s'), q) := by
  unfold applyEach at h
  split at h
  · rename_i happlied
    exact .inl ⟨happlied, h⟩
  · obtain ⟨⟨⟨ended, s'⟩, q⟩, hm, ha⟩ := Option.bind_eq_some_iff.mp h
    cases ended with
    | applied hs ds => exact .inr (.inl ⟨hs, ds, s', q, hm, ha⟩)
    | dropped why => exact .inr (.inr (.inl ⟨why, s', q, hm, ha⟩))
    | unwound message => exact .inr (.inr (.inr ⟨message, s', q, hm, (Option.some.inj ha).symm⟩))

section Cons

variable {source : Source ν σ} {ms : List ModuleInfo} {session : ProcessSession} {r : ApplyReport}

theorem applyEach_cons_passed (h : session.isApplied m.moduleId = true) :
    applyEach source (m :: ms) session r s p = applyEach source ms session r s p := by
  rw [applyEach, if_pos h]

theorem applyEach_cons_applied {hs : List HookHandle} {ds : List Diagnostic}
    (hnew : session.isApplied m.moduleId = false)
    (h : applyModule source session.app m s p = some ((.applied hs ds, s'), q)) :
    applyEach source (m :: ms) session r s p
      = applyEach source ms
          (session.pushApplied { moduleId := m.moduleId, priority := m.priority, handles := hs })
          { r with
            applied := r.applied ++ [m.moduleId]
            diagnostics := r.diagnostics ++ ds.map ({ moduleId := m.moduleId, diagnostic := · }) }
          s' q := by
  rw [applyEach, hnew, if_neg Bool.false_ne_true, h, Option.bind_some]

theorem applyEach_cons_dropped {why : ModuleFailure}
    (hnew : session.isApplied m.moduleId = false)
    (h : applyModule source session.app m s p = some ((.dropped why, s'), q)) :
    applyEach source (m :: ms) session r s p
      = applyEach source ms (session.pushFailed m.moduleId)
          { r with failed := r.failed ++
              [{ moduleId := m.moduleId
                 diagnostic := Diagnostic.of .moduleLoadFailure why.detail }] }
          s' q := by
  rw [applyEach, hnew, if_neg Bool.false_ne_true, h, Option.bind_some]

theorem applyEach_cons_unwound {message : Option String}
    (hnew : session.isApplied m.moduleId = false)
    (h : applyModule source session.app m s p = some ((.unwound message, s'), q)) :
    applyEach source (m :: ms) session r s p = some (((.unwound message, session), s'), q) := by
  rw [applyEach, hnew, if_neg Bool.false_ne_true, h, Option.bind_some]

end Cons

end Host

/-! ## Reports -/

namespace ProcessSession

theorem isApplied_iff {session : ProcessSession} {id : String} :
    session.isApplied id = true ↔ id ∈ session.moduleIds := by
  rw [isApplied, moduleIds, List.any_eq_true, List.mem_map]
  simp only [beq_iff_eq]

theorem moduleIds_pushApplied (session : ProcessSession) (a : AppliedModule) :
    (session.pushApplied a).moduleIds = session.moduleIds ++ [a.moduleId] := by
  rw [moduleIds, pushApplied, List.map_append]
  rfl

theorem pushFailed_eq (session : ProcessSession) (id : String) :
    session.pushFailed id = { session with
      failed := if id ∈ session.failed then session.failed else session.failed ++ [id] } := by
  rw [pushFailed, List.contains_eq_mem]
  by_cases hid : id ∈ session.failed
  · rw [if_pos (decide_eq_true hid), if_pos hid]
  · rw [if_neg (by simpa using hid), if_neg hid]

theorem moduleIds_pushFailed (session : ProcessSession) (id : String) :
    (session.pushFailed id).moduleIds = session.moduleIds := by
  rw [pushFailed_eq]
  rfl

theorem app_pushFailed (session : ProcessSession) (id : String) :
    (session.pushFailed id).app = session.app := by
  rw [pushFailed_eq]

end ProcessSession

/-- A report that had something to say already, and now accounts for a list of modules. -/
structure Accounts (loader : Loader ν) (app : AppDescriptor) (ms : List ModuleInfo)
    (r r' : ApplyReport) : Prop where
  /-- Every module is accounted for. -/
  each : ∀ m ∈ ms, m.moduleId ∈ r'.applied ∨ m.moduleId ∈ r'.failed.map (·.moduleId)
  /-- None is accounted for twice, unless it came twice. -/
  once : (r'.applied ++ r'.failed.map (·.moduleId)).Subperm
    (r.applied ++ r.failed.map (·.moduleId) ++ ms.map (·.moduleId))
  /-- Those that are applied have completed. -/
  applied : ∀ id ∈ r'.applied, id ∈ r.applied ∨
    ∃ m ∈ ms, m.moduleId = id ∧ m.Completes loader app
  /-- Those that are not have failed, and it is said why. -/
  failed : ∀ d ∈ r'.failed, d ∈ r.failed ∨ ∃ m ∈ ms, ∃ why, m.Drops loader app why ∧
    d = { moduleId := m.moduleId, diagnostic := Diagnostic.of .moduleLoadFailure why.detail }
  stillApplied : r.applied ⊆ r'.applied
  stillFailed : r.failed ⊆ r'.failed

namespace Accounts

variable {loader : Loader ν} {app : AppDescriptor} {m : ModuleInfo} {ms ms' : List ModuleInfo}
variable {r r' : ApplyReport}

theorem nil (r : ApplyReport) : Accounts loader app [] r r where
  each := fun _ hm => absurd hm List.not_mem_nil
  once := by rw [List.map_nil, List.append_nil]
  applied := fun _ hid => .inl hid
  failed := fun _ hd => .inl hd
  stillApplied := fun _ hid => hid
  stillFailed := fun _ hd => hd

/-- A module that is passed over has been applied already. -/
theorem passed (h : Accounts loader app ms r r') (hm : m.moduleId ∈ r.applied) :
    Accounts loader app (m :: ms) r r' where
  each := List.forall_mem_cons.mpr ⟨.inl (h.stillApplied hm), h.each⟩
  once := by
    refine h.once.trans ?_
    rw [List.map_cons]
    exact ((List.sublist_cons_self _ _).append_left _).subperm
  applied := fun id hid => (h.applied id hid).imp_right fun ⟨n, hn, h⟩ =>
    ⟨n, List.mem_cons_of_mem m hn, h⟩
  failed := fun d hd => (h.failed d hd).imp_right fun ⟨n, hn, h⟩ =>
    ⟨n, List.mem_cons_of_mem m hn, h⟩
  stillApplied := h.stillApplied
  stillFailed := h.stillFailed

theorem completed {diagnostics : List ModuleDiagnostic}
    (h : Accounts loader app ms { r with applied := r.applied ++ [m.moduleId], diagnostics } r')
    (hm : m.Completes loader app) : Accounts loader app (m :: ms) r r' where
  each := List.forall_mem_cons.mpr
    ⟨.inl (h.stillApplied (List.mem_append_right _ List.mem_cons_self)), h.each⟩
  once := by
    refine h.once.trans (List.Perm.subperm ?_)
    rw [List.map_cons, List.append_assoc, List.append_assoc, List.append_assoc,
      List.singleton_append]
    exact List.perm_middle.symm.append_left _
  applied := by
    intro id hid
    rcases h.applied id hid with hold | ⟨n, hn, hcompletes⟩
    · rcases List.mem_append.mp hold with hold | hnew
      · exact .inl hold
      · exact .inr ⟨m, List.mem_cons_self, (List.mem_singleton.mp hnew).symm, hm⟩
    · exact .inr ⟨n, List.mem_cons_of_mem m hn, hcompletes⟩
  failed := fun d hd => (h.failed d hd).imp_right fun ⟨n, hn, h⟩ =>
    ⟨n, List.mem_cons_of_mem m hn, h⟩
  stillApplied := fun _ hid => h.stillApplied (List.mem_append_left _ hid)
  stillFailed := h.stillFailed

theorem dropped {why : ModuleFailure}
    (h : Accounts loader app ms { r with failed := r.failed ++
      [{ moduleId := m.moduleId, diagnostic := Diagnostic.of .moduleLoadFailure why.detail }] } r')
    (hm : m.Drops loader app why) : Accounts loader app (m :: ms) r r' where
  each := by
    refine List.forall_mem_cons.mpr ⟨.inr ?_, h.each⟩
    exact List.mem_map.mpr
      ⟨_, h.stillFailed (List.mem_append_right _ List.mem_cons_self), rfl⟩
  once := by
    refine h.once.trans (List.Perm.subperm ?_)
    rw [List.map_append, List.map_cons, List.append_assoc, List.append_assoc, List.append_assoc]
    rfl
  applied := fun id hid => (h.applied id hid).imp_right fun ⟨n, hn, h⟩ =>
    ⟨n, List.mem_cons_of_mem m hn, h⟩
  failed := by
    intro d hd
    rcases h.failed d hd with hold | ⟨n, hn, hdrops⟩
    · rcases List.mem_append.mp hold with hold | hnew
      · exact .inl hold
      · exact .inr ⟨m, List.mem_cons_self, why, hm, List.mem_singleton.mp hnew⟩
    · exact .inr ⟨n, List.mem_cons_of_mem m hn, hdrops⟩
  stillApplied := h.stillApplied
  stillFailed := fun _ hd => h.stillFailed (List.mem_append_left _ hd)

theorem perm (h : Accounts loader app ms r r') (hperm : ms.Perm ms') :
    Accounts loader app ms' r r' where
  each := fun m hm => h.each m (hperm.mem_iff.mpr hm)
  once := h.once.trans ((hperm.map _).append_left _).subperm
  applied := fun id hid => (h.applied id hid).imp_right fun ⟨m, hm, h⟩ =>
    ⟨m, hperm.mem_iff.mp hm, h⟩
  failed := fun d hd => (h.failed d hd).imp_right fun ⟨m, hm, h⟩ => ⟨m, hperm.mem_iff.mp hm, h⟩
  stillApplied := h.stillApplied
  stillFailed := h.stillFailed

end Accounts

namespace Host

variable {loader : Loader ν} {ms : List ModuleInfo} {session : ProcessSession} {r : ApplyReport}
variable {s : σ} {p : Host ν} {a : ((ApplyEnd × ProcessSession) × σ) × Host ν}

/-- **A list of modules comes to a report that accounts for all of them, or to
one that panics as it is loaded.** -/
theorem applyEach_accounts (hids : session.moduleIds = r.applied)
    (h : applyEach loader.source ms session r s p = some a) :
    (∃ r', a.1.1.1 = .report r' ∧ Accounts loader session.app ms r r') ∨
    ∃ m ∈ ms, ∃ message, a.1.1.1 = .unwound message ∧ m.Unwinds loader session.app message := by
  induction ms generalizing session r s p with
  | nil =>
    cases h
    exact .inl ⟨r, rfl, .nil r⟩
  | cons m ms ih =>
    rcases applyEach_cons_cases h with ⟨happlied, hrest⟩ | ⟨hs, ds, s', q, hm, hrest⟩ |
      ⟨why, s', q, hm, hrest⟩ | ⟨message, s', q, hm, rfl⟩
    · rcases ih hids hrest with ⟨r', hr', haccounts⟩ | ⟨n, hn, hunwinds⟩
      · rw [ProcessSession.isApplied_iff, hids] at happlied
        exact .inl ⟨r', hr', haccounts.passed happlied⟩
      · exact .inr ⟨n, List.mem_cons_of_mem m hn, hunwinds⟩
    · have hids' : (session.pushApplied ⟨m.moduleId, m.priority, hs⟩).moduleIds
          = r.applied ++ [m.moduleId] := by
        rw [ProcessSession.moduleIds_pushApplied, hids]
      rcases ih (by exact hids') hrest with ⟨r', hr', haccounts⟩ | ⟨n, hn, hunwinds⟩
      · exact .inl ⟨r', hr', haccounts.completed (applyModule_completes hm)⟩
      · exact .inr ⟨n, List.mem_cons_of_mem m hn, hunwinds⟩
    · have hids' : (session.pushFailed m.moduleId).moduleIds = r.applied := by
        rw [ProcessSession.moduleIds_pushFailed, hids]
      rw [← ProcessSession.app_pushFailed session m.moduleId]
      rcases ih (by exact hids') hrest with ⟨r', hr', haccounts⟩ | ⟨n, hn, hunwinds⟩
      · exact .inl ⟨r', hr', haccounts.dropped (session.app_pushFailed _ ▸ applyModule_drops hm)⟩
      · exact .inr ⟨n, List.mem_cons_of_mem m hn, hunwinds⟩
    · exact .inr ⟨m, List.mem_cons_self, message, rfl, applyModule_unwinds hm⟩

/-- A list of modules that came to a report is accounted for in it. -/
theorem accounts_of_report {report : ApplyReport} {after : ProcessSession} {s' : σ} {q : Host ν}
    (hids : session.moduleIds = r.applied)
    (h : applyEach loader.source ms session r s p = some (((.report report, after), s'), q)) :
    Accounts loader session.app ms r report := by
  rcases applyEach_accounts hids h with ⟨r', hr', haccounts⟩ | ⟨_, _, _, hr', _⟩
  · cases hr'
    exact haccounts
  · cases hr'

end Host

end Interpose
