/-
Interpose.Proofs.Fork.Trail — the roads a new process may take.

Whatever the daemon answers, whatever is loaded and whatever the code that
is loaded does, a new process takes one of six roads. Five of them leave
it alone: it has asked the daemon one thing at most and is then what it
was. On the sixth it loads code, of modules that were offered to it and
are meant for it, registers itself when that is done, and reports what
went wrong.

`Exit` lists the ways out with their conditions, `forkFrom_exit` says that
there are no others. What happens while modules are applied is followed by
induction on the list: `applyEach_loads` for what is loaded,
`applyEach_tells` for what the session says of it, `applyEach_ends` for
its coming to an end at all.

Main statement: `forkFrom_lawful`.
-/
import Mathlib
import Interpose.Proofs.Apply.Accounts
import Interpose.Proofs.Fork.Contacts

namespace Interpose

variable {ν σ : Type}

/-! ## What is loaded -/

namespace Host

/-- Entry points are loaded in their order, and nothing else is asked of anybody. -/
theorem runEntries_loads {ctx : HookContext} {source : Source ν σ} {es : List EntryPoint}
    {r : InitRecord} {s : σ} {log : List Contact} {p : Host ν}
    {a : ((EntriesEnd × InitRecord) × (σ × List Contact)) × Host ν}
    (h : runEntries ctx source.recorded es r (s, log) p = some a) :
    ∃ loads, loads <+: es ∧ a.1.2.2 = log ++ loads.map .loaded := by
  induction es generalizing r s log p with
  | nil =>
    cases h
    exact ⟨[], List.nil_prefix, (List.append_nil log).symm⟩
  | cons e es ih =>
    have hone : [e] <+: e :: es := ⟨es, rfl⟩
    unfold runEntries Source.recorded at h
    dsimp only at h
    cases hload : source e s with
    | mk loaded s' =>
      rw [hload] at h
      cases loaded with
      | refused err =>
        cases h
        exact ⟨[e], hone, rfl⟩
      | panicked message =>
        cases h
        exact ⟨[e], hone, rfl⟩
      | ready init =>
        obtain ⟨⟨⟨ended, mine⟩, q⟩, _, ha⟩ := Option.bind_eq_some_iff.mp h
        cases ended with
        | completed =>
          obtain ⟨loads, hprefix, hlog⟩ := ih ha
          refine ⟨e :: loads, List.cons_prefix_cons.mpr ⟨rfl, hprefix⟩, ?_⟩
          rw [hlog, List.append_assoc]
          rfl
        | failed chain =>
          cases ha
          exact ⟨[e], hone, rfl⟩
        | panicked message =>
          cases ha
          exact ⟨[e], hone, rfl⟩

theorem applyModule_loads {source : Source ν σ} {app : AppDescriptor} {m : ModuleInfo} {s : σ}
    {log : List Contact} {p : Host ν} {a : (ModuleEnd × (σ × List Contact)) × Host ν}
    (h : applyModule source.recorded app m (s, log) p = some a) :
    ∃ loads, loads <+: m.entryPoints ∧ a.1.2.2 = log ++ loads.map .loaded := by
  unfold applyModule at h
  split at h
  · cases h
    exact ⟨[], List.nil_prefix, (List.append_nil log).symm⟩
  · obtain ⟨⟨⟨⟨ended, r⟩, s', log'⟩, q⟩, hrun, rfl⟩ := Option.map_eq_some_iff.mp h
    obtain ⟨loads, hprefix, hlog⟩ := runEntries_loads hrun
    refine ⟨loads, hprefix, ?_⟩
    cases ended <;> exact hlog

/-- **Only entry points of the modules to be applied are loaded.** -/
theorem applyEach_loads {source : Source ν σ} {ms : List ModuleInfo} {session : ProcessSession}
    {r : ApplyReport} {s : σ} {log : List Contact} {p : Host ν}
    {a : ((ApplyEnd × ProcessSession) × (σ × List Contact)) × Host ν}
    (h : applyEach source.recorded ms session r (s, log) p = some a) :
    ∃ loads : List EntryPoint, (∀ e ∈ loads, ∃ m ∈ ms, e ∈ m.entryPoints) ∧
      a.1.2.2 = log ++ loads.map .loaded := by
  induction ms generalizing session r s log p with
  | nil =>
    cases h
    exact ⟨[], fun e he => absurd he List.not_mem_nil, (List.append_nil log).symm⟩
  | cons m ms ih =>
    -- The module's own loads come before those of the others.
    have hnext : ∀ {ended s' log' q session' r'},
        applyModule source.recorded session.app m (s, log) p = some ((ended, s', log'), q) →
        applyEach source.recorded ms session' r' (s', log') q = some a →
        ∃ loads : List EntryPoint, (∀ e ∈ loads, ∃ n ∈ m :: ms, e ∈ n.entryPoints) ∧
          a.1.2.2 = log ++ loads.map .loaded := by
      intro ended s' log' q session' r' hm ha
      obtain ⟨mine, hprefix, hlog'⟩ := applyModule_loads hm
      obtain ⟨others, hothers, hlog⟩ := ih ha
      refine ⟨mine ++ others, ?_, ?_⟩
      · intro e he
        rcases List.mem_append.mp he with he | he
        · exact ⟨m, List.mem_cons_self, hprefix.subset he⟩
        · obtain ⟨n, hn, hen⟩ := hothers e he
          exact ⟨n, List.mem_cons_of_mem m hn, hen⟩
      · have hlog' : log' = log ++ mine.map .loaded := hlog'
        rw [hlog, hlog', List.map_append, List.append_assoc]
    rcases applyEach_cons_cases h with ⟨-, hskip⟩ | ⟨hs, ds, ⟨s', log'⟩, q, hm, ha⟩ |
      ⟨why, ⟨s', log'⟩, q, hm, ha⟩ | ⟨message, ⟨s', log'⟩, q, hm, rfl⟩
    · obtain ⟨loads, hloads, hlog⟩ := ih hskip
      refine ⟨loads, fun e he => ?_, hlog⟩
      obtain ⟨n, hn, hen⟩ := hloads e he
      exact ⟨n, List.mem_cons_of_mem m hn, hen⟩
    · exact hnext hm ha
    · exact hnext hm ha
    · obtain ⟨loads, hprefix, hlog⟩ := applyModule_loads hm
      exact ⟨loads, fun e he => ⟨m, List.mem_cons_self, hprefix.subset he⟩, hlog⟩

end Host

/-! ## What a session says of a report -/

/-- A text that comes last stays only if it is new. -/
theorem eraseDups_concat (ids : List String) (id : String) :
    (ids ++ [id]).eraseDups
      = if id ∈ ids then ids.eraseDups else ids.eraseDups ++ [id] := by
  rw [List.eraseDups_append, List.removeAll]
  by_cases hid : id ∈ ids
  · rw [if_pos hid, List.filter_cons_of_neg (by simp [hid])]
    exact List.append_nil _
  · rw [if_neg hid, List.filter_cons_of_pos (by simp [hid])]
    rfl

/-- The modules that failed, each once. -/
def ApplyReport.failedModules (r : ApplyReport) : List String :=
  (r.failed.map (·.moduleId)).eraseDups

/-- A session that names the modules of a report, and is in all else the one that was begun. -/
structure ProcessSession.Tells (begun session : ProcessSession) (r : ApplyReport) : Prop where
  applied : session.moduleIds = r.applied
  failed : session.failed = r.failedModules
  pid : session.pid = begun.pid
  app : session.app = begun.app
  registryVersion : session.registryVersion = begun.registryVersion
  token : session.token = begun.token

namespace ProcessSession

variable {begun session : ProcessSession} {r : ApplyReport}

theorem Tells.begin (pid : UInt32) (app : AppDescriptor) (version : UInt64) :
    Tells { pid, app, registryVersion := version } { pid, app, registryVersion := version } {} :=
  ⟨rfl, rfl, rfl, rfl, rfl, rfl⟩

theorem Tells.pushApplied (t : begun.Tells session r) (m : AppliedModule)
    (diagnostics : List ModuleDiagnostic) :
    begun.Tells (session.pushApplied m)
      { r with applied := r.applied ++ [m.moduleId], diagnostics } :=
  { t with
    applied := by
      rw [moduleIds, ProcessSession.pushApplied, List.map_append]
      exact congrArg (· ++ [m.moduleId]) t.applied }

/-- A module that fails twice is named once. -/
theorem Tells.pushFailed (t : begun.Tells session r) (id : String) (d : Diagnostic) :
    begun.Tells (session.pushFailed id)
      { r with failed := r.failed ++ [{ moduleId := id, diagnostic := d }] } := by
  rw [pushFailed_eq]
  refine { t with failed := ?_ }
  show (if id ∈ session.failed then session.failed else session.failed ++ [id])
    = ((r.failed ++ [ModuleDiagnostic.mk id d]).map (·.moduleId)).eraseDups
  rw [List.map_append, List.map_singleton, eraseDups_concat, t.failed,
    ApplyReport.failedModules]
  simp only [List.mem_eraseDups]

end ProcessSession

/-- **A session tells what the report tells**, whatever list of modules is
applied; nobody is too late in between. -/
theorem Host.applyEach_tells {source : Source ν σ} {ms : List ModuleInfo}
    {begun session : ProcessSession} {r : ApplyReport} {s : σ} {p : Host ν}
    (t : begun.Tells session r) {a : ((ApplyEnd × ProcessSession) × σ) × Host ν}
    (h : applyEach source ms session r s p = some a) :
    (∃ message, a.1.1.1 = .unwound message) ∨
    ∃ r', a.1.1.1 = .report r' ∧ begun.Tells a.1.1.2 r' := by
  induction ms generalizing session r s p with
  | nil =>
    cases h
    exact .inr ⟨r, rfl, t⟩
  | cons m ms ih =>
    rcases applyEach_cons_cases h with ⟨-, hskip⟩ | ⟨hs, ds, s', q, _, ha⟩ |
      ⟨why, s', q, _, ha⟩ | ⟨message, s', q, _, rfl⟩
    · exact ih t hskip
    · exact ih (t.pushApplied _ _) ha
    · exact ih (t.pushFailed _ _) ha
    · exact .inl ⟨message, rfl⟩

/-! ## Coming to an end -/

/-- No load panics, and every callback that is loaded comes to an end. -/
structure Source.Ends (source : Source ν σ) : Prop where
  load : ∀ e s message, (source e s).1 ≠ .panicked message
  init : ∀ e s init, (source e s).1 = .ready init → ∀ (ctx : HookContext) r p,
    ∃ a, ctx.run (Host.enter Host.callDepth) init r p = some a

namespace Host

theorem runEntries_ends {source : Source ν σ} (hends : source.Ends) (ctx : HookContext)
    (es : List EntryPoint) (r : InitRecord) (s : σ) (p : Host ν) :
    ∃ ended r' s' q, runEntries ctx source es r s p = some (((ended, r'), s'), q) ∧
      ∀ message, ended ≠ .unwound message := by
  induction es generalizing r s p with
  | nil => exact ⟨_, _, _, _, rfl, by simp⟩
  | cons e es ih =>
    have hload := hends.load e s
    have hinit := hends.init e s
    unfold runEntries
    cases hsource : source e s with
    | mk loaded s' =>
      rw [hsource] at hload hinit
      cases loaded with
      | refused err => exact ⟨_, _, _, _, rfl, by simp⟩
      | panicked message => exact absurd rfl (hload message)
      | ready init =>
        obtain ⟨⟨⟨ended, mine⟩, q⟩, hrun⟩ := hinit init rfl ctx {} p
        dsimp only
        rw [hrun, Option.bind_some]
        cases ended with
        | completed => exact ih _ s' q
        | failed chain => exact ⟨_, _, _, _, rfl, by simp⟩
        | panicked message => exact ⟨_, _, _, _, rfl, by simp⟩

theorem applyModule_ends {source : Source ν σ} (hends : source.Ends) (app : AppDescriptor)
    (m : ModuleInfo) (s : σ) (p : Host ν) :
    ∃ ended s' q, applyModule source app m s p = some ((ended, s'), q) ∧
      ∀ message, ended ≠ .unwound message := by
  unfold applyModule
  split
  · exact ⟨_, _, _, rfl, by simp⟩
  · obtain ⟨ended, r, s', q, hrun, hne⟩ :=
      runEntries_ends hends { moduleId := m.moduleId, priority := m.priority, app } m.entryPoints
        {} s p
    dsimp only
    rw [hrun, Option.map_some]
    cases ended with
    | completed => exact ⟨_, _, _, rfl, by simp⟩
    | failed why => exact ⟨_, _, _, rfl, by simp⟩
    | unwound message => exact absurd rfl (hne message)

/-- **Where all code comes to an end, so does applying it**, with a report. -/
theorem applyEach_ends {source : Source ν σ} (hends : source.Ends) (ms : List ModuleInfo)
    (session : ProcessSession) (r : ApplyReport) (s : σ) (p : Host ν) :
    ∃ r' session' s' q,
      applyEach source ms session r s p = some (((.report r', session'), s'), q) := by
  induction ms generalizing session r s p with
  | nil => exact ⟨_, _, _, _, rfl⟩
  | cons m ms ih =>
    unfold applyEach
    split
    · exact ih session r s p
    · obtain ⟨ended, s', q, hm, hne⟩ := applyModule_ends hends session.app m s p
      rw [hm, Option.bind_some]
      cases ended with
      | applied hs ds => exact ih _ _ s' q
      | dropped why => exact ih _ _ s' q
      | unwound message => exact absurd rfl (hne message)

end Host

/-! ## Ways out -/

/-- The roads a new process may take. -/
def ForkState.roads : List (List ForkState) := [
  [.spawned, .skipped .tooLate],
  [.spawned, .skipped .scopeUnreachable],
  [.spawned, .scopeQueried, .skipped .noModules],
  [.spawned, .scopeQueried, .modulesFetched, .skipped .noModules],
  [.spawned, .scopeQueried, .modulesFetched, .skipped .tooLate],
  [.spawned, .scopeQueried, .modulesFetched, .hooksApplied, .running]]

/-- The modules of an answer that are meant for a process, in the order of their application. -/
def ScopeAnswer.meant (answer : ScopeAnswer) (app : AppDescriptor) : List ModuleInfo :=
  ModuleInfo.inOrder (answer.modules.filter (·.appliesTo app))

theorem ScopeAnswer.mem_meant {answer : ScopeAnswer} {app : AppDescriptor} {m : ModuleInfo} :
    m ∈ answer.meant app ↔ m ∈ answer.modules ∧ m.enabled = true ∧
      ∃ scope, m.scope = some scope ∧ scope.covers app = true := by
  rw [meant, ModuleInfo.inOrder, List.mem_mergeSort, List.mem_filter, ModuleInfo.appliesTo,
    Bool.and_eq_true, Option.any_eq_true]

theorem ScopeAnswer.meant_eq_nil_iff {answer : ScopeAnswer} {app : AppDescriptor} :
    answer.meant app = [] ↔ answer.modules.filter (·.appliesTo app) = [] := by
  have hperm : (answer.meant app).Perm (answer.modules.filter (·.appliesTo app)) :=
    List.mergeSort_perm _ _
  exact ⟨fun h => (h ▸ hperm).symm.eq_nil, fun h => (h ▸ hperm).eq_nil⟩

namespace Host

section Exits

variable (link : Link σ) (source : Source ν σ) (startsMeanwhile heartbeat : Bool) (pid : UInt32)
variable (app : AppDescriptor) (s : σ) (p : Host ν)

/-- The ways out of the first moments of a process, each with its condition. -/
inductive Exit : (ForkEnd × σ) × Host ν → Prop
  | entered (h : p.appEntered = true) : Exit ((.outcome (.skip [.spawned] .tooLate 0), s), p)
  | unreachable {e : LinkError} {s' : σ} (h : p.appEntered = false)
      (asked : link.queryScope app s = (.error e, s')) :
      Exit ((.outcome (.skip [.spawned] .scopeUnreachable 0), s'),
        { p with appEntered := startsMeanwhile })
  | noneOffered {answer : ScopeAnswer} {s' : σ} (h : p.appEntered = false)
      (asked : link.queryScope app s = (.ok answer, s')) (none : answer.modules = []) :
      Exit ((.outcome (.skip [.spawned, .scopeQueried] .noModules answer.registryVersion), s'),
        { p with appEntered := startsMeanwhile })
  | noneMeant {answer : ScopeAnswer} {s' : σ} (h : p.appEntered = false)
      (asked : link.queryScope app s = (.ok answer, s'))
      (none : answer.modules.filter (·.appliesTo app) = []) :
      Exit ((.outcome (.skip [.spawned, .scopeQueried, .modulesFetched] .noModules
          answer.registryVersion), s'), { p with appEntered := startsMeanwhile })
  | late {answer : ScopeAnswer} {s' : σ} (h : p.appEntered = false)
      (asked : link.queryScope app s = (.ok answer, s')) (started : startsMeanwhile = true) :
      Exit ((.outcome (.skip [.spawned, .scopeQueried, .modulesFetched] .tooLate
          answer.registryVersion), s'), { p with appEntered := startsMeanwhile })
  | unwound {answer : ScopeAnswer} {s' s'' : σ} {message : Option String}
      {session : ProcessSession} {q : Host ν} (h : p.appEntered = false)
      (asked : link.queryScope app s = (.ok answer, s'))
      (applied : applyEach source (answer.meant app)
        { pid, app, registryVersion := answer.registryVersion } {} s'
        { p with appEntered := startsMeanwhile } = some (((.unwound message, session), s''), q)) :
      Exit ((.unwound message, s''), q)
  | running {answer : ScopeAnswer} {s' s'' : σ} {session : ProcessSession} {report : ApplyReport}
      {q : Host ν} (h : p.appEntered = false)
      (asked : link.queryScope app s = (.ok answer, s'))
      (applied : applyEach source (answer.meant app)
        { pid, app, registryVersion := answer.registryVersion } {} s'
        { p with appEntered := startsMeanwhile } = some (((.report report, session), s''), q)) :
      Exit ((.outcome (announce link heartbeat session report s'').1,
        (announce link heartbeat session report s'').2), q)

variable {link source startsMeanwhile heartbeat pid app s p}

/-- **There are no other ways out.** -/
theorem forkFrom_exit {a : (ForkEnd × σ) × Host ν}
    (h : forkFrom link source startsMeanwhile heartbeat pid app s p = some a) :
    Exit link source startsMeanwhile heartbeat pid app s p a := by
  unfold forkFrom at h
  split at h
  · rename_i hentered
    cases h
    exact .entered hentered
  · rename_i hentered
    have hentered := eq_false_of_ne_true hentered
    dsimp only at h
    cases hasked : link.queryScope app s with
    | mk answer s' =>
      rw [hasked] at h
      cases answer with
      | error e =>
        cases h
        exact .unreachable hentered hasked
      | ok answer =>
        dsimp only at h
        split at h
        · rename_i hnone
          cases h
          exact .noneOffered hentered hasked (List.isEmpty_iff.mp hnone)
        · split at h
          · rename_i hnone
            cases h
            exact .noneMeant hentered hasked (List.isEmpty_iff.mp hnone)
          · obtain ⟨⟨⟨⟨ended, session⟩, s''⟩, q⟩, happly, rfl⟩ := Option.map_eq_some_iff.mp h
            unfold applyFrom at happly
            split at happly
            · rename_i hstarted
              cases happly
              exact .late hentered hasked hstarted
            · cases ended with
              | report report => exact .running hentered hasked happly
              | unwound message => exact .unwound hentered hasked happly
              | tooLate =>
                rcases applyEach_tells (.begin pid app answer.registryVersion) happly with
                  ⟨message, hm⟩ | ⟨r, hr, _⟩
                · cases hm
                · cases hr

/-- A process that is offered modules which are meant for it is applied them, as
long as its application waits, and is announced if that comes to a report. -/
theorem forkFrom_meant {answer : ScopeAnswer} {s' : σ} (hentered : p.appEntered = false)
    (hasked : link.queryScope app s = (.ok answer, s')) (hmeant : answer.meant app ≠ []) :
    forkFrom link source false heartbeat pid app s p
      = (applyEach source (answer.meant app)
          { pid, app, registryVersion := answer.registryVersion } {} s' p).map fun
        | (((.tooLate, _), s), p) =>
          ((.outcome (.skip [.spawned, .scopeQueried, .modulesFetched] .tooLate
            answer.registryVersion), s), p)
        | (((.unwound message, _), s), p) => ((.unwound message, s), p)
        | (((.report report, session), s), p) =>
          ((.outcome (announce link heartbeat session report s).1,
            (announce link heartbeat session report s).2), p) := by
  have hsome : answer.modules.filter (·.appliesTo app) ≠ [] :=
    fun hnil => hmeant (ScopeAnswer.meant_eq_nil_iff.mpr hnil)
  have hmodules : answer.modules ≠ [] := by
    intro hnil
    exact hsome (by rw [hnil]; rfl)
  have hp : { p with appEntered := false } = p := by rw [← hentered]
  have hentered' : ¬p.appEntered = true := by simp [hentered]
  rw [forkFrom, if_neg hentered', hasked]
  simp only [hp]
  rw [if_neg (by simpa using hmodules), if_neg (by simpa using hsome), applyFrom,
    if_neg hentered']
  rfl

/-- A process that is meant for no module is left alone. -/
theorem forkFrom_unmeant {answer : ScopeAnswer} {s' : σ} (hentered : p.appEntered = false)
    (hasked : link.queryScope app s = (.ok answer, s')) (hmeant : answer.meant app = []) :
    ∃ stages, forkFrom link source false heartbeat pid app s p
      = some ((.outcome (.skip stages .noModules answer.registryVersion), s'), p) := by
  have hnone := ScopeAnswer.meant_eq_nil_iff.mp hmeant
  have hp : { p with appEntered := false } = p := by rw [← hentered]
  have hentered' : ¬p.appEntered = true := by simp [hentered]
  rw [forkFrom, if_neg hentered', hasked]
  simp only [hp]
  split
  · exact ⟨_, rfl⟩
  · rw [if_pos (List.isEmpty_iff.mpr hnone)]
    exact ⟨_, rfl⟩

end Exits

end Host

/-! ## The law -/

namespace Contact

def isAsked : Contact → Bool
  | .asked _ => true
  | _ => false

/-- All that a process has to do with others if it runs with modules, in
order: the question, the loads, the registration, the reports. -/
def course (app : AppDescriptor) (loads : List EntryPoint) (reg : Registration)
    (ds : List ModuleDiagnostic) : List Contact :=
  .asked app :: loads.map .loaded ++
    .registered reg :: ds.map fun d => .reported reg.pid d.moduleId d.diagnostic

variable {app : AppDescriptor} {loads : List EntryPoint} {reg : Registration}
variable {ds : List ModuleDiagnostic}

theorem loaded_mem_course {e : EntryPoint} :
    .loaded e ∈ course app loads reg ds ↔ e ∈ loads := by
  simp [course]

theorem countP_course : (course app loads reg ds).countP isAsked = 1 := by
  have hloads : (loads.map loaded).countP isAsked = 0 := by
    rw [List.countP_map, List.countP_eq_zero]
    exact fun _ _ h => nomatch h
  have hreports :
      (ds.map fun d => reported reg.pid d.moduleId d.diagnostic).countP isAsked = 0 := by
    rw [List.countP_map, List.countP_eq_zero]
    exact fun _ _ h => nomatch h
  rw [course, List.cons_append, List.countP_cons, List.countP_append, List.countP_cons, hloads,
    hreports]
  rfl

end Contact

namespace ForkOutcome

/-- A process that carries nothing and has asked the daemon one thing at most. -/
structure LeftAlone (o : ForkOutcome) (app : AppDescriptor) (log : List Contact) : Prop where
  session : o.session = none
  report : o.report = {}
  keepalive : o.keepalive = none
  contacts : log = [] ∨ log = [.asked app]

/-- What a process registers that has been applied modules. -/
def registration (o : ForkOutcome) (pid : UInt32) (app : AppDescriptor) : Registration where
  pid
  app := some app
  moduleIds := o.report.applied
  registryVersion := o.registryVersion
  failedModuleIds := o.report.failedModules

/-- A process that has loaded code, then registered itself, once, and then
reported every diagnostic, once and in order. It has its token from that
registration, if it was given one, and stays known if it carries a module. -/
structure Announced (o : ForkOutcome) (link : Link σ) (heartbeat : Bool) (pid : UInt32)
    (app : AppDescriptor) (log : List Contact) (s' : σ) : Prop where
  contacts : ∃ loads,
    log = Contact.course app loads (o.registration pid app) o.report.reportable
  session : ∃ session token s₁ s₂, o.session = some session ∧
    link.register (o.registration pid app) s₁ = (token, s₂) ∧
    s' = link.reportAll pid o.report.reportable s₂ ∧
    session.moduleIds = o.report.applied ∧ session.failed = o.report.failedModules ∧
    session.pid = pid ∧ session.app = app ∧ session.registryVersion = o.registryVersion ∧
    session.token = token.toOption
  keepalive : o.keepalive =
    if heartbeat && !o.report.applied.isEmpty then some (o.registration pid app) else none

end ForkOutcome

namespace Host

variable {link : Link σ} {source : Source ν σ} {startsMeanwhile heartbeat : Bool} {pid : UInt32}
variable {app : AppDescriptor} {s : σ} {p : Host ν}

/-- What becomes of a process that is announced. -/
theorem announce_eq (session : ProcessSession) (report : ApplyReport) (s : σ) :
    announce link heartbeat session report s =
      let answer := link.register session.registration s
      ({ state := .running
         trail := [.spawned, .scopeQueried, .modulesFetched, .hooksApplied, .running]
         session := some { session with token := answer.1.toOption.or session.token }
         report
         registryVersion := session.registryVersion
         keepalive := if heartbeat && !session.applied.isEmpty then
           some session.registration else none },
        link.reportAll session.pid report.reportable answer.2) := by
  unfold announce
  dsimp only
  cases link.register session.registration s with
  | mk token s' => cases token <;> rfl

/-- A session that tells what its report tells is announced as it should be. -/
theorem announce_announced (link : Link σ) (heartbeat : Bool) {version : UInt64}
    {session : ProcessSession} {report : ApplyReport}
    (t : ProcessSession.Tells { pid, app, registryVersion := version } session report)
    (loads : List EntryPoint) (s : σ) :
    (announce link heartbeat session report s).1.Announced link heartbeat pid app
      (Contact.course app loads session.registration report.reportable)
      (announce link heartbeat session report s).2 := by
  have hreg : (announce link heartbeat session report s).1.registration pid app
      = session.registration := by
    rw [announce_eq, ForkOutcome.registration, ProcessSession.registration, t.pid, t.app,
      t.applied, t.failed]
  have hempty : session.applied.isEmpty = report.applied.isEmpty := by
    rw [← t.applied, ProcessSession.moduleIds, List.isEmpty_map]
  have hpid : session.pid = pid := t.pid
  refine ⟨⟨loads, ?_⟩, ?_, ?_⟩
  · rw [hreg, announce_eq]
  · rw [hreg, announce_eq]
    refine ⟨_, _, s, _, rfl, rfl, ?_, t.applied, t.failed, t.pid, t.app, rfl, ?_⟩
    · rw [hpid]
    · show Option.or _ session.token = _
      rw [t.token, Option.or_none]
  · rw [hreg, announce_eq]
    dsimp only
    rw [hempty]

/-- What the law says of a process that has come to an outcome, and of its contacts. -/
structure Lawful (link : Link σ) (heartbeat : Bool) (pid : UInt32) (app : AppDescriptor) (s : σ)
    (p : Host ν) (o : ForkOutcome) (log : List Contact) (s' : σ) (q : Host ν) : Prop where
  road : o.trail ∈ ForkState.roads
  last : o.trail.getLast? = some o.state
  /-- The daemon is asked once, and not at all if the application has started. -/
  asked : log.countP Contact.isAsked = if p.appEntered then 0 else 1
  /-- What is loaded belongs to modules that were offered and are meant for the process. -/
  loaded : ∀ e, .loaded e ∈ log → ∃ answer, (link.queryScope app s).1 = .ok answer ∧
    ∃ m ∈ answer.modules, m.enabled = true ∧
      (∃ scope, m.scope = some scope ∧ scope.covers app = true) ∧ e ∈ m.entryPoints
  /-- The process is as it was, but for its application, which may have started. -/
  skipped : ∀ why, o.state = .skipped why →
    o.LeftAlone app log ∧ q = { p with appEntered := q.appEntered }
  running : o.state = .running → ∃ answer, (link.queryScope app s).1 = .ok answer ∧
    o.registryVersion = answer.registryVersion ∧ o.Announced link heartbeat pid app log s'

/-- A process that is left alone without the daemon's being asked, or after it was. -/
theorem Lawful.skip {q : Host ν} {log : List Contact} {s' : σ} {stages : List ForkState}
    {why : SkipReason} {version : UInt64} (hroad : stages ++ [.skipped why] ∈ ForkState.roads)
    (hlog : log = if p.appEntered then [] else [.asked app])
    (hq : q = { p with appEntered := q.appEntered }) :
    Lawful link heartbeat pid app s p (.skip stages why version) log s' q where
  road := hroad
  last := by simp [ForkOutcome.skip]
  asked := by
    rw [hlog]
    split <;> rfl
  loaded := by
    intro e he
    rw [hlog] at he
    split at he <;> simp at he
  skipped := by
    intro _ _
    refine ⟨⟨rfl, rfl, rfl, ?_⟩, hq⟩
    rw [hlog]
    split
    · exact .inl rfl
    · exact .inr rfl
  running := fun hrunning => nomatch hrunning

/-- A process that runs with what it was applied. -/
theorem Lawful.run {q : Host ν} {answer : ScopeAnswer} {session : ProcessSession}
    {report : ApplyReport} {loads : List EntryPoint} (hentered : p.appEntered = false)
    (hanswer : (link.queryScope app s).1 = .ok answer)
    (hloads : ∀ e ∈ loads, ∃ m ∈ answer.meant app, e ∈ m.entryPoints)
    (t : ProcessSession.Tells { pid, app, registryVersion := answer.registryVersion } session
      report) (s' : σ) :
    Lawful link heartbeat pid app s p (announce link heartbeat session report s').1
      (Contact.course app loads session.registration report.reportable)
      (announce link heartbeat session report s').2 q where
  road := by
    rw [announce_eq]
    show [ForkState.spawned, .scopeQueried, .modulesFetched, .hooksApplied, .running]
      ∈ ForkState.roads
    decide
  last := by
    rw [announce_eq]
    rfl
  asked := by
    rw [hentered]
    exact Contact.countP_course
  loaded := by
    intro e he
    obtain ⟨m, hm, hem⟩ := hloads e (Contact.loaded_mem_course.mp he)
    obtain ⟨hoffered, henabled, hscope⟩ := ScopeAnswer.mem_meant.mp hm
    exact ⟨answer, hanswer, m, hoffered, henabled, hscope, hem⟩
  skipped := by
    intro why hwhy
    rw [announce_eq] at hwhy
    cases hwhy
  running := by
    intro _
    refine ⟨answer, hanswer, ?_, announce_announced link heartbeat t loads s'⟩
    rw [announce_eq]
    exact t.registryVersion

theorem asked_recorded {log : List Contact}
    {x : Except LinkError ScopeAnswer × (σ × List Contact)}
    (h : link.recorded.queryScope app (s, log) = x) :
    (link.queryScope app s).1 = x.1 ∧ x.2.2 = log ++ [.asked app] := by
  subst h
  exact ⟨rfl, rfl⟩

/-- **Every way out keeps the law**, as long as it comes to an outcome. -/
theorem Exit.lawful {a : (ForkEnd × (σ × List Contact)) × Host ν}
    (h : Exit link.recorded source.recorded startsMeanwhile heartbeat pid app (s, []) p a)
    {o : ForkOutcome} (ho : a.1.1 = .outcome o) :
    Lawful link heartbeat pid app s p o a.1.2.2 a.1.2.1 a.2 := by
  cases h with
  | entered hentered =>
    cases ho
    exact .skip (by decide) (by rw [hentered]; rfl) rfl
  | unreachable hentered hasked =>
    cases ho
    exact .skip (by decide) (by rw [hentered, (asked_recorded hasked).2]; rfl) rfl
  | noneOffered hentered hasked _ =>
    cases ho
    exact .skip (by decide) (by rw [hentered, (asked_recorded hasked).2]; rfl) rfl
  | noneMeant hentered hasked _ =>
    cases ho
    exact .skip (by decide) (by rw [hentered, (asked_recorded hasked).2]; rfl) rfl
  | late hentered hasked _ =>
    cases ho
    exact .skip (by decide) (by rw [hentered, (asked_recorded hasked).2]; rfl) rfl
  | unwound _ _ _ => cases ho
  | @running answer s₁ s₂ session report q hentered hasked happlied =>
    cases ho
    obtain ⟨hanswer, hlog₁⟩ := asked_recorded hasked
    obtain ⟨loads, hloads, hlog₂⟩ := applyEach_loads happlied
    have hlog : s₂.2 = .asked app :: loads.map .loaded := by
      rw [hlog₂]
      exact congrArg (· ++ _) hlog₁
    have htells : ProcessSession.Tells
        { pid, app, registryVersion := answer.registryVersion } session report := by
      rcases applyEach_tells (.begin pid app answer.registryVersion) happlied with
        ⟨_, hm⟩ | ⟨r, hr, ht⟩
      · cases hm
      · cases hr
        exact ht
    have hrecorded : announce link.recorded heartbeat session report s₂
        = ((announce link heartbeat session report s₂.1).1,
          (announce link heartbeat session report s₂.1).2,
          Contact.course app loads session.registration report.reportable) := by
      refine (announce_recorded link heartbeat session report s₂.1 s₂.2).trans ?_
      rw [hlog]
      rfl
    rw [hrecorded]
    exact .run hentered hanswer hloads htells s₂.1

/-- Where all code comes to an end, so does every new process: to an outcome. -/
theorem forkFrom_ends (hends : source.Ends) :
    ∃ o s' q, forkFrom link source startsMeanwhile heartbeat pid app s p
      = some ((.outcome o, s'), q) := by
  unfold forkFrom
  split
  · exact ⟨_, _, _, rfl⟩
  · dsimp only
    cases (link.queryScope app s).1 with
    | error e => exact ⟨_, _, _, rfl⟩
    | ok answer =>
      dsimp only
      split
      · exact ⟨_, _, _, rfl⟩
      · split
        · exact ⟨_, _, _, rfl⟩
        · unfold applyFrom
          split
          · exact ⟨_, _, _, rfl⟩
          · obtain ⟨r, session, s', q, happly⟩ := applyEach_ends hends
              (ModuleInfo.inOrder (answer.modules.filter (·.appliesTo app)))
              { pid, app, registryVersion := answer.registryVersion } {}
              (link.queryScope app s).2 { p with appEntered := startsMeanwhile }
            rw [happly]
            exact ⟨_, _, _, rfl⟩

/-- **Every new process that comes to an outcome has kept the law**, and if
all code comes to an end, so does every new process: to an outcome. -/
theorem forkFrom_lawful (link : Link σ) (source : Source ν σ) (startsMeanwhile heartbeat : Bool)
    (pid : UInt32) (app : AppDescriptor) (s : σ) (p : Host ν) :
    (∀ o s' q, forkFrom link source startsMeanwhile heartbeat pid app s p
        = some ((.outcome o, s'), q) →
      ∃ log, forkFrom link.recorded source.recorded startsMeanwhile heartbeat pid app (s, []) p
          = some ((.outcome o, s', log), q) ∧
        Lawful link heartbeat pid app s p o log s' q) ∧
    (source.Ends → ∃ o s' q, forkFrom link source startsMeanwhile heartbeat pid app s p
      = some ((.outcome o, s'), q)) := by
  constructor
  · intro o s' q h
    rw [← forkFrom_recorded link source startsMeanwhile heartbeat pid app s [] p] at h
    obtain ⟨⟨⟨ended, s₁, log⟩, q'⟩, hrun, heq⟩ := Option.map_eq_some_iff.mp h
    cases heq
    exact ⟨log, hrun, (forkFrom_exit hrun).lawful rfl⟩
  · exact forkFrom_ends

/-- Three modules are offered. One completes, one panics and one is
disabled: the first is registered, the second reported, the third never
loaded. -/
theorem forkFrom_lawful_disabled :
    let link : Link Unit := {
      queryScope := fun _ s => (.ok { modules := [
        { moduleId := "good", enabled := true, scope := some .all,
          entryPoints := [{ codePath := "good" }] },
        { moduleId := "bad", enabled := true, scope := some .all,
          entryPoints := [{ codePath := "bad" }] },
        { moduleId := "off", scope := some .all, entryPoints := [{ codePath := "off" }] }] }, s)
      register := fun _ s => (.error .timeout, s)
      report := fun _ _ _ s => (.ok (), s)
      heartbeat := fun _ _ s => (.ok true, s) }
    let source : Source Unit Unit := fun e s =>
      (.ready (.finish (if e.codePath = "good" then .completed else .panicked none)), s)
    ∃ o log q, forkFrom link.recorded source.recorded false true 1 {} ((), []) {}
        = some ((.outcome o, (), log), q) ∧
      o.state = .running ∧ o.report.applied = ["good"] ∧
      o.report.failed.map (·.moduleId) = ["bad"] ∧ .loaded { codePath := "off" } ∉ log := by
  intro link source
  have hends : source.Ends := by
    refine ⟨by simp [source], fun e s init h ctx r p => ?_⟩
    cases h
    exact ⟨_, rfl⟩
  obtain ⟨hlawful, hcomes⟩ := forkFrom_lawful link source false true 1 {} () {}
  obtain ⟨o, s', q, hrun⟩ := hcomes hends
  obtain ⟨log, hrecorded, law⟩ := hlawful o s' q hrun
  have heval : (forkFrom link source false true 1 {} () {}).map (·.1.1) = some (.outcome {
      state := .running
      trail := [.spawned, .scopeQueried, .modulesFetched, .hooksApplied, .running]
      session := some {
        pid := 1
        app := {}
        applied := [{ moduleId := "good", priority := 0, handles := [] }]
        failed := ["bad"] }
      report := {
        applied := ["good"]
        failed := [{
          moduleId := "bad"
          diagnostic := Diagnostic.of .moduleLoadFailure
            "init panicked: non-string panic payload" }] }
      keepalive := some {
        pid := 1
        app := some {}
        moduleIds := ["good"]
        failedModuleIds := ["bad"] } }) := by
    cbv
  rw [hrun] at heval
  cases heval
  refine ⟨_, log, q, hrecorded, rfl, rfl, rfl, fun hloaded => ?_⟩
  obtain ⟨answer, hanswer, m, hm, henabled, _, hentry⟩ := law.loaded _ hloaded
  cases hanswer
  simp at hm
  rcases hm with rfl | rfl | rfl
  · simp at hentry
  · simp at hentry
  · cases henabled

end Host

end Interpose
