/-
Interpose.Proofs.Fork.Containment — how far a panic gets in a new process.

A new process applies the modules that are in scope for it, and whatever
their callbacks do, it comes to an outcome: a callback that panics is one
more module that failed, and the others are applied as they would have been
without it. A constructor that panics as its module is loaded is another
matter. Nobody catches it, and it takes the process down: nothing is rolled
back, the modules after it have no turn, and the process is not announced
(`modules_contained_unwound`).

Main statement: `modules_contained`.
-/
import Mathlib
import Interpose.Proofs.Apply.Containment
import Interpose.Proofs.Fork.Trail

namespace Interpose

variable {ν σ : Type}

namespace Link

/-- A daemon that does not offer some modules. -/
def without (link : Link σ) (gone : List String) : Link σ :=
  { link with
    queryScope := fun app s =>
      let a := link.queryScope app s
      (a.1.map fun answer =>
        { answer with modules := answer.modules.filter (·.moduleId ∉ gone) }, a.2) }

/-- The modules that are in scope for a process, in the order of their application. -/
def inScope (link : Link σ) (app : AppDescriptor) (s : σ) : List ModuleInfo :=
  match (link.queryScope app s).1 with
  | .ok answer => answer.meant app
  | .error _ => []

end Link

/-- What is not offered is not meant for anybody. -/
theorem ScopeAnswer.meant_filter (answer : ScopeAnswer) (app : AppDescriptor)
    (keep : ModuleInfo → Bool) :
    ScopeAnswer.meant { answer with modules := answer.modules.filter keep } app
      = (answer.meant app).filter keep := by
  rw [meant, meant, ModuleInfo.inOrder_filter, List.filter_filter, List.filter_filter]
  simp only [Bool.and_comm]

namespace Host

variable {link : Link σ} {pid : UInt32} {app : AppDescriptor} {s s' s'' : σ} {p q : Host ν}

/-- A process whose modules come to a report comes to an outcome with that
report, even if there are no modules. -/
theorem forkFrom_reported {source : Source ν σ} (heartbeat : Bool) {answer : ScopeAnswer}
    {session : ProcessSession} {r : ApplyReport} (hentered : p.appEntered = false)
    (hasked : link.queryScope app s = (.ok answer, s'))
    (h : applyEach source (answer.meant app)
        { pid, app, registryVersion := answer.registryVersion } {} s' p
      = some (((.report r, session), s''), q)) :
    ∃ o s₁, forkFrom link source false heartbeat pid app s p = some ((.outcome o, s₁), q) ∧
      o.report = r := by
  by_cases hmeant : answer.meant app = []
  · obtain ⟨stages, hfork⟩ : ∃ stages, forkFrom link source false heartbeat pid app s p
        = some ((.outcome (.skip stages .noModules answer.registryVersion), s'), p) :=
      forkFrom_unmeant hentered hasked hmeant
    rw [hmeant] at h
    cases h
    exact ⟨_, _, hfork, rfl⟩
  · rw [forkFrom_meant hentered hasked hmeant, h]
    exact ⟨_, _, rfl, by rw [announce_eq]⟩

/-- **A new process contains its modules, or one of them panics as it is loaded.** -/
theorem fork_contained (hreached : p.Reached) (hentered : p.appEntered = false)
    (loader : Loader ν) (hblind : ∀ e, (loader e).Blind) (link : Link σ) (heartbeat : Bool)
    (pid : UInt32) (app : AppDescriptor) (s : σ) :
    (∃ o s' q, fork link loader heartbeat pid app s p = some ((.outcome o, s'), q) ∧
      Contained loader app (link.inScope app s) p o.report q fun gone r' q' => ∃ o' s',
        fork (link.without gone) loader heartbeat pid app s p = some ((.outcome o', s'), q') ∧
        o'.report = r') ∨
    ∃ message s' q, fork link loader heartbeat pid app s p = some ((.unwound message, s'), q) ∧
      ∃ m ∈ link.inScope app s, m.Unwinds loader app message := by
  cases hasked : link.queryScope app s with
  | mk answer s' =>
    cases answer with
    | error e =>
      have hp : { p with appEntered := false } = p := by rw [← hentered]
      have hskip : ∀ link : Link σ, link.queryScope app s = (.error e, s') →
          fork link loader heartbeat pid app s p
            = some ((.outcome (.skip [.spawned] .scopeUnreachable 0), s'), p) := by
        intro link h
        rw [fork, forkFrom, if_neg (by simp [hentered]), h]
        simp only [hp]
      have hnone : link.inScope app s = [] := by rw [Link.inScope, hasked]
      have hwithout : ∀ gone, (link.without gone).queryScope app s = (.error e, s') := by
        intro gone
        simp only [Link.without, hasked]
        rfl
      rw [hnone]
      exact .inl ⟨_, s', p, hskip link hasked,
        .nothing fun gone => ⟨_, s', hskip _ (hwithout gone), rfl⟩⟩
    | ok answer =>
      have hscope : link.inScope app s = answer.meant app := by rw [Link.inScope, hasked]
      have hwithout : ∀ gone : List String, (link.without gone).queryScope app s
          = (.ok { answer with modules := answer.modules.filter (·.moduleId ∉ gone) }, s') := by
        intro gone
        simp only [Link.without, hasked]
        rfl
      rw [hscope]
      rcases applyEach_contained hreached loader (answer.meant app) (fun _ _ e _ => hblind e)
          { pid, app, registryVersion := answer.registryVersion } rfl s' with
        ⟨r, after, q, hrun, hcontained⟩ | ⟨message, after, q, hrun, m, hm, hunwinds⟩
      · obtain ⟨o, s₁, hfork, rfl⟩ := forkFrom_reported heartbeat hentered hasked hrun
        refine .inl ⟨o, s₁, q, hfork, hcontained.imp (.refl _) ?_⟩
        rintro gone r' q' ⟨after', hrerun⟩
        rw [← ScopeAnswer.meant_filter] at hrerun
        exact forkFrom_reported heartbeat hentered (hwithout gone) hrerun
      · refine .inr ⟨message, s', q, ?_, m, hm, hunwinds⟩
        rw [fork, forkFrom_meant hentered hasked (List.ne_nil_of_mem hm), hrun]
        rfl

/-- **Whatever the callbacks of modules do, panic or not, modules that are
brought to a process are contained**, whether it has just been forked or is
told which ones: those that fail are reported, their layers are gone, and the
others come to what they would have come to without them. It is otherwise only
if a module panics as it is loaded. Then the process goes down with it. -/
theorem modules_contained (hreached : p.Reached) (hentered : p.appEntered = false)
    (loader : Loader ν) (hblind : ∀ e, (loader e).Blind) :
    (∀ (modules : List ModuleInfo) (session : ProcessSession), session.applied = [] →
      (∃ r after q, p.apply loader modules session = some ((.report r, after), q) ∧
        Contained loader session.app modules p r q fun gone r' q' => ∃ after',
          p.apply loader (modules.filter (·.moduleId ∉ gone)) session
            = some ((.report r', after'), q')) ∨
      ∃ message after q, p.apply loader modules session = some ((.unwound message, after), q) ∧
        ∃ m ∈ modules, m.Unwinds loader session.app message) ∧
    ∀ (link : Link σ) (heartbeat : Bool) (pid : UInt32) (app : AppDescriptor) (s : σ),
      (∃ o s' q, fork link loader heartbeat pid app s p = some ((.outcome o, s'), q) ∧
        Contained loader app (link.inScope app s) p o.report q fun gone r' q' => ∃ o' s',
          fork (link.without gone) loader heartbeat pid app s p
            = some ((.outcome o', s'), q') ∧ o'.report = r') ∨
      ∃ message s' q, fork link loader heartbeat pid app s p = some ((.unwound message, s'), q) ∧
        ∃ m ∈ link.inScope app s, m.Unwinds loader app message :=
  ⟨fun modules _ happlied => apply_contained hreached hentered loader hblind modules happlied,
    fun link heartbeat pid app s =>
      fork_contained hreached hentered loader hblind link heartbeat pid app s⟩

/-- A process with one method. -/
def quiescent : Host Unit where
  methods := [{
    info := { id := ⟨1⟩, className := "A", name := "f" }
    entry := .body fun _ => .finish (.ok .null) }]

theorem quiescent_reached : quiescent.Reached := by
  refine .untouched ⟨rfl, rfl, fun x hx => ?_⟩ fun _ => rfl
  cases List.mem_singleton.mp hx
  exact ⟨_, rfl⟩

/-- A callback that hooks the method. -/
def hooking (ended : InitEnd) : Init Unit :=
  .hookMethod ⟨1⟩ { run := fun v => .proceed v.call.args .finish } fun _ => .finish ended

/-- A daemon that offers two modules to everybody: one whose second entry point
is no good, and after it one that is. -/
def offering : Link Unit where
  queryScope _ s := (.ok { modules := [
    { moduleId := "bad", enabled := true, scope := some .all, priority := 1,
      entryPoints := [{ codePath := "good" }, { codePath := "bad" }] },
    { moduleId := "good", enabled := true, scope := some .all,
      entryPoints := [{ codePath := "good" }] }] }, s)
  register _ s := (.ok "token", s)
  report _ _ _ s := (.ok (), s)
  heartbeat _ _ s := (.ok true, s)

/-- The second callback of a module panics: the module is reported, the layer of
its first one is gone, and the process is as it would be without it. -/
theorem modules_contained_panicking :
    let loader : Loader Unit := fun e =>
      .ready (hooking (if e.codePath = "good" then .completed else .panicked none))
    ∃ o q o' q', fork offering loader true 7 {} () quiescent = some ((.outcome o, ()), q) ∧
      o.state = .running ∧ o.report.applied = ["good"] ∧
      o.report.failed.map (·.moduleId) = ["bad"] ∧
      (∀ m, ∀ l ∈ q.layers m, l.moduleId = "good") ∧
      fork (offering.without ["bad"]) loader true 7 {} () quiescent
        = some ((.outcome o', ()), q') ∧
      o'.report = { applied := ["good"] } ∧ ∀ m, q'.dispatch m = q.dispatch m := by
  intro loader
  have hblind : ∀ e, (loader e).Blind := fun _ => ⟨fun _ _ _ => rfl, fun _ => trivial⟩
  rcases (modules_contained quiescent_reached rfl loader hblind).2 offering true 7 {} () with
    ⟨o, ⟨⟩, q, hrun, hcontained⟩ | ⟨message, _, q, _, m, _, hunwinds⟩
  · have heval : (fork offering loader true 7 {} () quiescent).map (·.1.1) = some (.outcome {
        state := .running
        trail := [.spawned, .scopeQueried, .modulesFetched, .hooksApplied, .running]
        session := some {
          pid := 7
          app := {}
          applied := [{ moduleId := "good", priority := 0, handles := [⟨3⟩] }]
          failed := ["bad"]
          token := some "token" }
        report := {
          applied := ["good"]
          failed := [{
            moduleId := "bad"
            diagnostic := Diagnostic.of .moduleLoadFailure
              "init panicked: non-string panic payload" }] }
        keepalive := some {
          pid := 7
          app := some {}
          moduleIds := ["good"]
          failedModuleIds := ["bad"] } }) := by
      cbv
    rw [hrun] at heval
    cases heval
    obtain ⟨q', ⟨o', ⟨⟩, hrerun, hreport'⟩, _, hdispatch⟩ :=
      hcontained.apart ["bad"] (by simp)
    refine ⟨_, q, o', q', hrun, rfl, rfl, rfl, ?_, hrerun, hreport', hdispatch⟩
    intro m l hl
    rcases hcontained.owned m l hl with hold | happlied
    · exact absurd hold List.not_mem_nil
    · exact List.mem_singleton.mp happlied
  · obtain ⟨e, _, hload⟩ := hunwinds.panics
    cases hload

/-- The second constructor of a module panics: the process goes down, the layer
of the first one stays, and the module after it has had no turn. -/
theorem modules_contained_unwound :
    let loader : Loader Unit := fun e =>
      if e.codePath = "good" then .ready (hooking .completed) else .panicked none
    ∃ q, fork offering loader true 7 {} () quiescent = some ((.unwound none, ()), q) ∧
      (q.layers ⟨1⟩).map (·.moduleId) = ["bad"] ∧
      ∃ o q', fork (offering.without ["bad"]) loader true 7 {} () quiescent
          = some ((.outcome o, ()), q') ∧
        o.report = { applied := ["good"] } ∧ (q'.layers ⟨1⟩).map (·.moduleId) = ["good"] := by
  intro loader
  have hwith : (fork offering loader true 7 {} () quiescent).map
      (fun a => (a.1, (a.2.layers ⟨1⟩).map (·.moduleId)))
      = some ((.unwound none, ()), ["bad"]) := by
    cbv
  have hwithout : (fork (offering.without ["bad"]) loader true 7 {} () quiescent).map
      (fun a => (a.1, (a.2.layers ⟨1⟩).map (·.moduleId)))
      = some ((.outcome {
          state := .running
          trail := [.spawned, .scopeQueried, .modulesFetched, .hooksApplied, .running]
          session := some {
            pid := 7
            app := {}
            applied := [{ moduleId := "good", priority := 0, handles := [⟨1⟩] }]
            token := some "token" }
          report := { applied := ["good"] }
          keepalive := some { pid := 7, app := some {}, moduleIds := ["good"] } }, ()),
        ["good"]) := by
    cbv
  obtain ⟨⟨_, q⟩, hrun, heq⟩ := Option.map_eq_some_iff.mp hwith
  obtain ⟨⟨_, q'⟩, hrun', heq'⟩ := Option.map_eq_some_iff.mp hwithout
  obtain ⟨rfl, hlayers⟩ := Prod.ext_iff.mp heq
  obtain ⟨rfl, hlayers'⟩ := Prod.ext_iff.mp heq'
  exact ⟨q, hrun, hlayers, _, q', hrun', rfl, hlayers'⟩

end Host

end Interpose
