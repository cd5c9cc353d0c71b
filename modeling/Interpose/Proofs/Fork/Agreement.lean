/-
Interpose.Proofs.Fork.Agreement — the daemon and a new process agree.

Which modules a process carries, and in what order, is decided three times:
by the registry, which answers a query; by the process, which looks the
answer over and sorts it again; and by the hook table, which orders every
chain by priority and by install. Between the first and the second the
answer travels over the wire. All three come to the same. Two modules on
one method show it from the changes that were asked for to the chain.

Main statement: `Daemon.agreed_run`.
-/
import Interpose.Daemon.Link
import Interpose.Proofs.Fork.Chains
import Interpose.Proofs.Hook.Reference
import Interpose.Proofs.Registry.Life
import Interpose.Proofs.Registry.Scope
import Interpose.Proofs.Wire.Messages

namespace Interpose

open Registry (Document Happening Offers Store World)

/-! ## Agreement -/

/-- What a process receives, and makes of it, is what the daemon answers and means. -/
structure Agreed (d : Document) (app : AppDescriptor) (answer received : ScopeAnswer) : Prop where
  /-- The answer names the enabled modules that cover the process, all of them
  and no others, by falling priority and then by rising install number. -/
  offers : Offers d app answer.modules
  /-- The process passes over none of them. -/
  meant : received.modules.filter (·.appliesTo app) = answer.modules
  /-- The process leaves them in their order. -/
  inOrder : ModuleInfo.inOrder received.modules = answer.modules
  /-- Whatever it loads, in a new process that nobody has hooked before the
  layers that modules installed stand along every chain as the modules stand
  in the answer. Where no other code installs hooks, this is the whole chain. -/
  chains : ∀ {ν σ : Type} (link : Link σ) (source : Source ν σ) (startsMeanwhile heartbeat : Bool)
    (pid : UInt32) (s s' : σ) (p q : Host ν) (o : ForkOutcome), p.Untouched →
    (link.queryScope app s).1 = .ok received →
    Host.forkFrom link source startsMeanwhile heartbeat pid app s p = some ((.outcome o, s'), q) →
    ∀ m, Follows (((q.layers m).filter (·.handle ∈ o.handles)).map (·.moduleId))
        (answer.modules.map (·.moduleId)) ∧
      (p.QuietUnless False → source.QuietUnless False →
        Follows ((q.layers m).map (·.moduleId)) (answer.modules.map (·.moduleId)))

/-- An answer that offers what a document has is agreed upon. -/
theorem agreed_of_offers {d : Document} {app : AppDescriptor} {answer : ScopeAnswer}
    (h : Offers d app answer.modules) : Agreed d app answer answer where
  offers := h
  meant := h.filter_appliesTo
  inOrder := h.inOrder
  chains := by
    intro ν σ link source startsMeanwhile heartbeat pid s s' p q o hp hanswer hfork m
    have hmeant : answer.meant app = answer.modules := by
      rw [ScopeAnswer.meant, h.filter_appliesTo, h.inOrder]
    have hall := Host.forkFrom_follows hp p.within_any source.within_any hanswer hfork m
    rw [hmeant] at hall
    refine ⟨hall.1, fun hquiet hsource => ?_⟩
    have hown := (Host.forkFrom_follows hp hquiet.within hsource.within hanswer hfork m).2
    have hwhole : (q.layers m).filter (·.handle ∈ o.handles) = q.layers m :=
      List.filter_eq_self.mpr fun l hl => decide_eq_true ((hown l hl).resolve_left not_false)
    rw [← hwhole]
    exact hall.1

/-! ## Two modules and one method -/

/-- What is asked of a registry: two modules, the second with the higher
priority, are installed, and the second is then confined to one user of one
application. -/
def confining : List Registry.Mutation := [
  .install {
    id := "low", enabled := true, scope := .all, entryPoints := [{ codePath := "low.so" }] },
  .install {
    id := "high", enabled := true, priority := 7, entryPoints := [{ codePath := "high.so" }] },
  .setScope "high" .append (.apps [{ appId := "app", userId := some 10 }])]

def confined : Document where
  version := 3
  nextSeq := 2
  modules := (Keyed.empty.insert "low" {
      id := "low", enabled := true, scope := .all, installSeq := 1
      entryPoints := [{ codePath := "low.so" }] }).insert "high" {
    id := "high", enabled := true, priority := 7, installSeq := 2
    scope := .apps [{ appId := "app", userId := some 10 }]
    entryPoints := [{ codePath := "high.so" }] }

/-- What is answered to a process of that user. -/
def confinedAnswer : ScopeAnswer where
  registryVersion := 3
  modules := [
    { moduleId := "high", enabled := true, priority := 7, installSeq := 2
      scope := some { targets := [{ appId := "app", userId := some 10 }] }
      entryPoints := [{ codePath := "high.so" }] },
    { moduleId := "low", enabled := true, scope := some .all, installSeq := 1
      entryPoints := [{ codePath := "low.so" }] }]

/-- Every module hooks the same method, and its hook calls through. -/
def hookingSource : Source Unit Daemon := fun _ d =>
  (.ready (.hookMethod ⟨1⟩ { run := fun v => .proceed v.call.args .finish } fun _ =>
    .finish .completed), d)

theorem hookingSource_quiet : hookingSource.QuietUnless False := by
  intro e d init hinit
  cases hinit
  exact ⟨fun _ _ => trivial, fun _ => trivial⟩

theorem Host.oneMethod_quiet : Host.oneMethod.QuietUnless False where
  entries := by
    intro m x hx
    cases List.mem_singleton.mp (List.mem_of_find?_eq_some hx)
    exact fun _ => trivial
  bases := fun _ _ hslot => nomatch hslot
  hooks := fun _ _ hslot => nomatch hslot
  inits := fun _ _ hinit => nomatch hinit

/-! ## The daemon -/

namespace Daemon

variable {d : Daemon} {app : AppDescriptor} {answer : ScopeAnswer}

/-- Every application that has an id is answered. -/
theorem queryScope_answers (d : Daemon) (happ : app.appId ≠ "") :
    d.queryScope { app := some app } = .ok {
      registryVersion := d.version
      modules := (d.registry.current.applicable app).map Module.toInfo } := by
  have hid : ¬app.appId.isEmpty = true := by rwa [String.isEmpty_iff]
  rw [queryScope, neededApp, if_neg hid]
  rfl

theorem modules_of_queryScope (h : d.queryScope { app := some app } = .ok answer) :
    answer.modules = (d.registry.current.applicable app).map Module.toInfo := by
  have happ : app.appId ≠ "" := by
    intro hempty
    simp [queryScope, neededApp, hempty] at h
    cases h
  rw [queryScope_answers d happ] at h
  exact congrArg ScopeAnswer.modules (Except.ok.inj h).symm

/-- The registry after the changes, opened again. -/
theorem current_confining {s : Store} {disk : Disk} (hmissing : disk.entry? s.path = none)
    (hplace : disk.Accepts s.path) :
    ((World.opened s disk).run s
      (confining.map (Happening.asked · none) ++ [.reopened])).live.current = confined := by
  obtain ⟨hkept, hempty⟩ := World.kept_opened hmissing
  have hmade : confining.foldlM Document.next (World.opened s disk).live.current = .ok confined := by
    rw [hempty]
    rfl
  have hopen : (World.opened s disk).disk.Accepts s.path := by
    rw [World.disk_opened hmissing]
    exact hplace
  rw [World.run, List.foldl_append]
  exact (hkept.run _).reopen.1.trans (World.current_run_asked hopen confining hmade)

section Confined

variable (hd : d.registry.current = confined)
include hd

theorem queryScope_confined :
    d.queryScope { app := some { appId := "app", userId := 10 } } = .ok confinedAnswer := by
  have hmodules : (confined.applicable { appId := "app", userId := 10 }).map Module.toInfo
      = confinedAnswer.modules := by cbv
  rw [queryScope_answers d (by decide), hd, hmodules, version, hd]
  rfl

/-- The process runs, and has both layers. -/
theorem forkFrom_confined :
    ∃ o d' q, Host.forkFrom link hookingSource false true 1 { appId := "app", userId := 10 } d
        Host.oneMethod = some ((.outcome o, d'), q) ∧
      (q.layers ⟨1⟩).map (·.moduleId) = ["high", "low"] := by
  have hasked : link.queryScope { appId := "app", userId := 10 } d = (.ok confinedAnswer, d) := by
    simp only [link, queryScope_confined hd]
    rfl
  have hmeant : confinedAnswer.meant { appId := "app", userId := 10 } = confinedAnswer.modules := by
    cbv
  have happlied : (Host.applyEach hookingSource confinedAnswer.modules
      { pid := 1, app := { appId := "app", userId := 10 }, registryVersion := 3 } {} d
      Host.oneMethod).map (fun a => (a.1.1.1, (a.2.layers ⟨1⟩).map (·.moduleId)))
        = some (.report { applied := ["high", "low"] }, ["high", "low"]) := by
    cbv
  obtain ⟨⟨⟨⟨ended, session⟩, d'⟩, q⟩, hrun, hends⟩ := Option.map_eq_some_iff.mp happlied
  obtain ⟨rfl, hlayers⟩ := Prod.mk.inj hends
  have hfork : Host.forkFrom link hookingSource false true 1 { appId := "app", userId := 10 } d
      Host.oneMethod = _ :=
    Host.forkFrom_meant rfl hasked (by rw [hmeant]; exact List.cons_ne_nil _ _)
  rw [hmeant] at hfork
  exact ⟨_, _, q, hfork.trans (congrArg _ hrun), hlayers⟩

end Confined

/-- **The daemon and every new process agree**, whatever was asked of the
registry before, as long as it was asked for fewer changes than there are
numbers: the answer to a query arrives as it was given, if it is not too
long to tell its length, and means the same on both sides. -/
theorem agreed_run (s : Store) (disk : Disk) (hs : List Happening) (d : Daemon)
    (hmissing : disk.entry? s.path = none) (hcount : hs.countP (·.isAsked) < UInt64.size - 1)
    (hd : d.registry.current = ((World.opened s disk).run s hs).live.current)
    (app : AppDescriptor) :
    (app.appId ≠ "" → ∃ answer, d.queryScope { app := some app } = .ok answer) ∧
    ∀ answer, d.queryScope { app := some app } = .ok answer →
      (Wire.scopeAnswer.encode answer).length < UInt64.size →
      ∃ received, Wire.scopeAnswer.decode (Wire.scopeAnswer.encode answer) = some received ∧
        Agreed d.registry.current app answer received := by
  refine ⟨fun happ => ⟨_, d.queryScope_answers happ⟩, fun answer hanswer hsize => ?_⟩
  refine ⟨answer, Wire.decode_encode_scopeAnswer hsize, agreed_of_offers ?_⟩
  obtain ⟨hsound, hnumbered⟩ := World.sound_run hmissing hs hcount
  rw [modules_of_queryScope hanswer, hd]
  exact Registry.offers_applicable hsound hnumbered app

/-- The daemon that is asked has opened the store again after the changes. A
process of the user is answered with both modules, the later one first, and
so they stand along the method. -/
theorem agreed_run_confined :
    let s := Store.withKey ["registry.json"] "key"
    let hs := confining.map (Happening.asked · none) ++ [.reopened]
    let booted := boot default { tokens := { name := toString } }
    let d : Daemon := { booted with registry := ((World.opened s {}).run s hs).live }
    let app : AppDescriptor := { appId := "app", userId := 10 }
    Disk.entry? {} s.path = none ∧ hs.countP (·.isAsked) < UInt64.size - 1 ∧
      d.registry.current = ((World.opened s {}).run s hs).live.current ∧
      d.queryScope { app := some app } = .ok confinedAnswer ∧
      (Wire.scopeAnswer.encode confinedAnswer).length < UInt64.size ∧
      ∃ received o d' q,
        Wire.scopeAnswer.decode (Wire.scopeAnswer.encode confinedAnswer) = some received ∧
        Agreed d.registry.current app confinedAnswer received ∧
        Host.forkFrom link hookingSource false true 1 app d Host.oneMethod
          = some ((.outcome o, d'), q) ∧
        (q.layers ⟨1⟩).map (·.moduleId) = ["high", "low"] ∧
        Follows ((q.layers ⟨1⟩).map (·.moduleId)) (confinedAnswer.modules.map (·.moduleId)) := by
  intro s hs booted d app
  have hmissing : Disk.entry? {} s.path = none := rfl
  have hplace : Disk.Accepts {} s.path := by
    refine ⟨fun q hq bytes hentry => ?_, fun hentry => by cases hentry⟩
    cases List.mem_singleton.mp hq
    cases hentry
  have hcount : hs.countP (·.isAsked) < UInt64.size - 1 := by decide
  -- said of any world, so that nobody lives this one's life to find out
  have hregistry : ∀ w : World,
      ({ booted with registry := w.live } : Daemon).registry.current = w.live.current :=
    fun _ => rfl
  have hd := hregistry ((World.opened s {}).run s hs)
  have hconfined : d.registry.current = confined := hd.trans (current_confining hmissing hplace)
  have hanswer := queryScope_confined hconfined
  have hsize : (Wire.scopeAnswer.encode confinedAnswer).length < UInt64.size := by cbv
  obtain ⟨received, hreceived, hagreed⟩ :=
    (agreed_run s {} hs d hmissing hcount hd app).2 confinedAnswer hanswer hsize
  obtain ⟨o, d', q, hfork, hlayers⟩ := forkFrom_confined hconfined
  have hasked : (link.queryScope app d).1 = .ok received := by
    have hsame := hreceived.symm.trans (Wire.decode_encode_scopeAnswer hsize)
    rw [Option.some.inj hsame]
    exact congrArg refusedCall hanswer
  have hchain := hagreed.chains link hookingSource false true 1 d d' Host.oneMethod q o
    Host.oneMethod_untouched hasked hfork ⟨1⟩
  exact ⟨hmissing, hcount, hd, hanswer, hsize, received, o, d', q, hreceived, hagreed, hfork,
    hlayers, hchain.2 Host.oneMethod_quiet hookingSource_quiet⟩

end Daemon

end Interpose
