/-
Interpose.Proofs.Fork.Contacts — what a new process has to do with others.

A process that has just been forked talks to the daemon and asks for code
to be loaded. `Link.recorded` and `Source.recorded` pass all of that on as
it is, and write it into one list as it happens. The list stands beside
whatever state the daemon and the loader have, so that nobody sees it:
`forkFrom_recorded` says that writing it down changes nothing else.
-/
import Interpose.Fork

namespace Interpose

/-- Something that a process asks of the daemon or of a loader. -/
inductive Contact where
  | asked (app : AppDescriptor)
  | loaded (e : EntryPoint)
  | registered (reg : Registration)
  | reported (pid : UInt32) (moduleId : String) (d : Diagnostic)
  | beat (pid : UInt32) (token : String)
  deriving DecidableEq, Repr

variable {ν σ : Type}

/-- A link that writes down what it is asked. -/
def Link.recorded (link : Link σ) : Link (σ × List Contact) where
  queryScope app s :=
    let a := link.queryScope app s.1
    (a.1, a.2, s.2 ++ [.asked app])
  register reg s :=
    let a := link.register reg s.1
    (a.1, a.2, s.2 ++ [.registered reg])
  report pid moduleId d s :=
    let a := link.report pid moduleId d s.1
    (a.1, a.2, s.2 ++ [.reported pid moduleId d])
  heartbeat pid token s :=
    let a := link.heartbeat pid token s.1
    (a.1, a.2, s.2 ++ [.beat pid token])

/-- A source that writes down what is loaded from it. -/
def Source.recorded (source : Source ν σ) : Source ν (σ × List Contact) := fun e s =>
  let a := source e s.1
  (a.1, a.2, s.2 ++ [.loaded e])

/-- A result without what has been written down. -/
def unrecorded {α : Type} (a : (α × (σ × List Contact)) × Host ν) : (α × σ) × Host ν :=
  ((a.1.1, a.1.2.1), a.2)

namespace Host

/-! ## Writing down changes nothing -/

theorem runEntries_recorded (ctx : HookContext) (source : Source ν σ) (es : List EntryPoint)
    (r : InitRecord) (s : σ) (log : List Contact) (p : Host ν) :
    (runEntries ctx source.recorded es r (s, log) p).map unrecorded
      = runEntries ctx source es r s p := by
  induction es generalizing r s log p with
  | nil => rfl
  | cons e es ih =>
    unfold runEntries Source.recorded
    dsimp only
    cases source e s with
    | mk loaded s' =>
      cases loaded with
      | refused err => rfl
      | panicked message => rfl
      | ready init =>
        dsimp only
        cases ctx.run (enter callDepth) init {} p with
        | none => rfl
        | some a =>
          obtain ⟨⟨ended, mine⟩, q⟩ := a
          cases ended with
          | completed => exact ih _ s' _ q
          | failed chain => rfl
          | panicked message => rfl

theorem applyModule_recorded (source : Source ν σ) (app : AppDescriptor) (m : ModuleInfo) (s : σ)
    (log : List Contact) (p : Host ν) :
    (applyModule source.recorded app m (s, log) p).map unrecorded
      = applyModule source app m s p := by
  unfold applyModule
  split
  · rfl
  · dsimp only
    rw [← runEntries_recorded _ source m.entryPoints {} s log p]
    cases runEntries _ source.recorded m.entryPoints {} (s, log) p with
    | none => rfl
    | some a =>
      obtain ⟨⟨⟨ended, r⟩, s', log'⟩, q⟩ := a
      cases ended <;> rfl

theorem applyEach_recorded (source : Source ν σ) (ms : List ModuleInfo) (session : ProcessSession)
    (r : ApplyReport) (s : σ) (log : List Contact) (p : Host ν) :
    (applyEach source.recorded ms session r (s, log) p).map unrecorded
      = applyEach source ms session r s p := by
  induction ms generalizing session r s log p with
  | nil => rfl
  | cons m ms ih =>
    unfold applyEach
    split
    · exact ih session r s log p
    · rw [← applyModule_recorded source session.app m s log p]
      cases applyModule source.recorded session.app m (s, log) p with
      | none => rfl
      | some a =>
        obtain ⟨⟨ended, s', log'⟩, q⟩ := a
        cases ended with
        | applied handles diagnostics => exact ih _ _ s' log' q
        | dropped why => exact ih _ _ s' log' q
        | unwound message => rfl

theorem reportAll_recorded (link : Link σ) (pid : UInt32) (ds : List ModuleDiagnostic) (s : σ)
    (log : List Contact) :
    link.recorded.reportAll pid ds (s, log)
      = (link.reportAll pid ds s,
          log ++ ds.map fun d => .reported pid d.moduleId d.diagnostic) := by
  induction ds generalizing s log with
  | nil => rw [List.map_nil, List.append_nil]; rfl
  | cons d ds ih =>
    rw [Link.reportAll, Link.reportAll, List.map_cons]
    refine (ih _ _).trans ?_
    rw [List.append_assoc]
    rfl

/-- Announcing is one registration and one report for each diagnostic, in order. -/
theorem announce_recorded (link : Link σ) (heartbeat : Bool) (session : ProcessSession)
    (report : ApplyReport) (s : σ) (log : List Contact) :
    announce link.recorded heartbeat session report (s, log)
      = ((announce link heartbeat session report s).1,
          (announce link heartbeat session report s).2,
          log ++ .registered session.registration :: report.reportable.map fun d =>
            .reported session.pid d.moduleId d.diagnostic) := by
  unfold announce
  have hregister : link.recorded.register session.registration (s, log)
      = ((link.register session.registration s).1, (link.register session.registration s).2,
          log ++ [.registered session.registration]) := rfl
  dsimp only
  rw [hregister]
  cases link.register session.registration s with
  | mk answer s' =>
    cases answer <;> simp only [reportAll_recorded, List.append_assoc, List.singleton_append]

/-- **A process that is written down behaves as one that is not.** -/
theorem forkFrom_recorded (link : Link σ) (source : Source ν σ) (startsMeanwhile heartbeat : Bool)
    (pid : UInt32) (app : AppDescriptor) (s : σ) (log : List Contact) (p : Host ν) :
    (forkFrom link.recorded source.recorded startsMeanwhile heartbeat pid app (s, log) p).map
        unrecorded
      = forkFrom link source startsMeanwhile heartbeat pid app s p := by
  unfold forkFrom
  have hasked : link.recorded.queryScope app (s, log)
      = ((link.queryScope app s).1, (link.queryScope app s).2, log ++ [.asked app]) := rfl
  split
  · rfl
  · dsimp only
    rw [hasked]
    cases link.queryScope app s with
    | mk answer s' =>
      cases answer with
      | error e => rfl
      | ok answer =>
        dsimp only
        split
        · rfl
        · split
          · rfl
          · unfold applyFrom
            split
            · rfl
            · rw [← applyEach_recorded source _ _ {} s' (log ++ [.asked app])]
              cases applyEach source.recorded _ _ {} (s', log ++ [.asked app]) _ with
              | none => rfl
              | some a =>
                obtain ⟨⟨⟨ended, session⟩, s'', log'⟩, q⟩ := a
                cases ended with
                | report r =>
                  simp only [Option.map_some, announce_recorded]
                  rfl
                | tooLate => rfl
                | unwound message => rfl

end Host

end Interpose
