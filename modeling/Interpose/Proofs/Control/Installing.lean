/-
Interpose.Proofs.Control.Installing — what an install leaves, and when it is refused.

An install goes on to make up to three changes, for a module that is there
keeps its state and its scope unless the line says otherwise
(`Module.updated`). With fit code and a store that can be written none of
the three fails (`installModule_ok`).

A line that asks for a module to be enabled is refused before anything is
looked at, and goes by the targets on the line alone
(`installModule_refused_iff`). So the refusal meets every module that would
be enabled without a scope, and also those that have a scope already, which
no target was needed for (`install_enabled_iff`).
-/
import Interpose.Proofs.Control.Restore
import Interpose.Proofs.Control.Scoped

namespace Interpose

open Registry (Document Fit Mutation)

/-! ## What is asked for -/

namespace Control

/-- The words of an install, but for whether the module is to be enabled. -/
structure Package where
  id : String
  entries : List EntryPoint
  priority : Int32 := 0
  targets : List Target := []

/-- The scope that the targets on the line stand for. -/
def Package.scope (p : Package) : ModuleScope := .ofWire (Target.scopeOf p.targets)

/-- The module that is put in where there is none. -/
def Package.fresh (p : Package) (enable : Bool) : Module :=
  { id := p.id, enabled := enable, scope := p.scope, entryPoints := p.entries, priority := p.priority }

end Control

open Control (Package)

/-- What an install makes of a module that is there: it has the new code, and keeps its
state and its scope unless the line says otherwise. -/
def Module.updated (old : Module) (p : Package) (enable : Bool) : Module :=
  { old with
    entryPoints := p.entries
    priority := p.priority
    scope := if p.targets = [] then old.scope else p.scope
    enabled := old.enabled || enable }

namespace Control

open Act (call print)

namespace Package

variable {σ : Type} (p : Package) (m : Manager σ) (enable existed : Bool)

/-- The command that installs a package. -/
def install : Act σ Unit := installModule m p.id p.entries p.priority p.targets enable

/-- The first change: the code. -/
def bring : Act σ MutationAnswer := change m (.install {
  moduleId := p.id
  enabled := enable
  scope := some (Target.scopeOf p.targets)
  entryPoints := p.entries
  priority := p.priority })

/-- The second change: a module that was there is given the scope on the line, if there is one. -/
def place (installed : MutationAnswer) : Act σ MutationAnswer :=
  if existed && !p.targets.isEmpty then
    change m (.setScope {
      moduleId := p.id, mode := ScopeMode.replace.code, scope := some (Target.scopeOf p.targets) })
  else pure installed

/-- The third change: a module that was there is enabled, if it is to be. -/
def wake (placed : MutationAnswer) : Act σ MutationAnswer :=
  if existed && enable then change m (.enable { moduleId := p.id }) else pure placed

/-- A look at what there is, and then up to three changes. -/
def changes : Act σ Unit := do
  let known ← listing m
  let existed := (find? known p.id).isSome
  let installed ← p.bring m enable
  let placed ← p.place m existed installed
  let last ← p.wake m enable existed placed
  print ((if existed then "Updated " else "Installed ") ++ p.id ++ " "
    ++ versionText last.registryVersion)

/-- An install that is not refused makes its changes. -/
theorem install_eq (hasked : ¬ (enable = true ∧ p.targets = [])) :
    p.install m enable = p.changes m enable := by
  have hguard : ¬ (enable && (Target.scopeOf p.targets).isEmpty) = true := by
    rw [isEmpty_scopeOf, Bool.and_eq_true, List.isEmpty_iff]
    exact hasked
  rw [install, installModule]
  dsimp only
  rw [if_neg hguard]
  refine congrArg (listing m >>= ·) (funext fun known => ?_)
  refine congrArg (p.bring m enable >>= ·) (funext fun installed => ?_)
  rw [place]
  simp only [wake]
  split <;> split <;> rfl

end Package

/-! ## Failures of calls -/

section Remote

variable {σ α β : Type} {x : Act σ α} {f : α → Act σ β}

/-- A piece of a command that fails only where the other side does. -/
structure Act.Remote (x : Act σ α) : Prop where
  remote : ∀ desk e, (x.perform desk).1 = .error e → ∃ s, e = .remote s

theorem Act.Remote.bind (hx : x.Remote) (hf : ∀ a, (f a).Remote) : (x >>= f).Remote := by
  refine ⟨fun desk e h => ?_⟩
  rw [perform_bind] at h
  have hfails := hx.remote desk
  rcases hrun : x.perform desk with ⟨_ | a, done⟩ <;> rw [hrun] at h hfails
  · exact hfails e (congrArg Except.error (Except.error.inj h))
  · exact (hf a).remote done e h

theorem Act.remote_pure (a : α) : Act.Remote (pure a : Act σ α) := ⟨fun _ _ h => nomatch h⟩

theorem Act.remote_print (line : String) : Act.Remote (print line : Act σ Unit) :=
  ⟨fun _ _ h => nomatch h⟩

theorem Act.remote_call (g : σ → Except Status α × σ) : Act.Remote (call g) := by
  refine ⟨fun desk e h => ?_⟩
  have hanswer : (g desk.behind).1.mapError Failure.remote = .error e := h
  cases hg : (g desk.behind).1 with
  | error s =>
    rw [hg] at hanswer
    exact ⟨s, (Except.error.inj hanswer).symm⟩
  | ok a =>
    rw [hg] at hanswer
    cases hanswer

end Remote

section

variable {σ : Type} (p : Package) (m : Manager σ) (enable existed : Bool) (answer : MutationAnswer)

theorem Package.remote_place : (p.place m existed answer).Remote := by
  rw [place]
  split
  next => exact Act.remote_call _
  next => exact Act.remote_pure _

theorem Package.remote_wake : (p.wake m enable existed answer).Remote := by
  rw [wake]
  split
  next => exact Act.remote_call _
  next => exact Act.remote_pure _

theorem Package.remote_changes : (p.changes m enable).Remote :=
  ((Act.remote_call _).bind fun _ => Act.remote_pure _).bind fun _ =>
    (Act.remote_call _).bind fun installed => (p.remote_place m _ installed).bind fun placed =>
      (p.remote_wake m enable _ placed).bind fun _ => Act.remote_print _

end

/-! ## The refusal -/

/-- **An install is refused for want of a scope exactly if it is to enable the module and
names no target**, whoever manages the modules, and then nobody is asked anything. -/
theorem installModule_refused_iff {σ : Type} (m : Manager σ) (p : Package) (enable : Bool)
    (desk : Desk σ) :
    (((p.install m enable).perform desk).1 = .error (.emptyScope p.id) ↔
      enable = true ∧ p.targets = []) ∧
    (enable = true ∧ p.targets = [] →
      (p.install m enable).perform desk = (.error (.emptyScope p.id), desk)) := by
  by_cases hasked : enable = true ∧ p.targets = []
  · have hguard : (enable && (Target.scopeOf p.targets).isEmpty) = true := by
      rw [isEmpty_scopeOf, hasked.1, hasked.2]
      rfl
    have hrefused : (p.install m enable).perform desk = (.error (.emptyScope p.id), desk) := by
      rw [Package.install, installModule]
      dsimp only
      rw [if_pos hguard]
      rfl
    exact ⟨iff_of_true (congrArg Prod.fst hrefused) hasked, fun _ => hrefused⟩
  · refine ⟨iff_of_false (fun hfail => ?_) hasked, fun h => absurd h hasked⟩
    rw [p.install_eq m enable hasked] at hfail
    obtain ⟨s, hs⟩ := (p.remote_changes m enable).remote desk _ hfail
    cases hs

/-! ## The three changes -/

section

variable (p : Package) (enable existed : Bool) (answer : MutationAnswer) (desk : Desk Daemon)
  {m : Module}

theorem Package.mutationOf_bring : Daemon.mutationOf (.install {
    moduleId := p.id
    enabled := enable
    scope := some (Target.scopeOf p.targets)
    entryPoints := p.entries
    priority := p.priority }) = .ok (.install (p.fresh enable)) := rfl

/-- A module that is there gets the new code. -/
theorem Package.bring_there (hfit : Fit (p.fresh enable))
    (hget : desk.behind.registry.current.get? p.id = some m)
    (hwrites : Daemon.Writes none desk.behind) :
    ∃ installed d, (p.bring Daemon.manager enable).perform desk
        = (.ok installed, { desk with behind := d }) ∧
      Changed desk.behind d p.id { m with entryPoints := p.entries, priority := p.priority } := by
  obtain ⟨d, hcall, hchanged⟩ := change_edit desk (p.mutationOf_bring enable) hget rfl
    (fun n hn => Mutation.install.inj hn ▸ hfit) hwrites
  exact ⟨_, d, hcall, hchanged⟩

/-- A module that is not there is put in with the next number. -/
theorem Package.bring_new (hfit : Fit (p.fresh enable))
    (hget : desk.behind.registry.current.get? p.id = none)
    (hwrites : Daemon.Writes none desk.behind) :
    ∃ installed d, (p.bring Daemon.manager enable).perform desk
        = (.ok installed, { desk with behind := d }) ∧
      Changed desk.behind d p.id
        { p.fresh enable with installSeq := d.registry.current.nextSeq } := by
  obtain ⟨next, hnext⟩ := (Document.next_isOk (d := desk.behind.registry.current)
    (m := .install (p.fresh enable))).mpr
      ⟨fun n hn => Mutation.install.inj hn ▸ hfit, fun hnot => absurd rfl (hnot _)⟩
  obtain ⟨d, hcall, rfl, hwrites'⟩ := change_ok desk (p.mutationOf_bring enable) hnext hwrites
  obtain ⟨n, hn, _, _, hthere⟩ := Document.get?_next_of_none hnext hget
  cases hn
  exact ⟨_, d, hcall, hthere, fun x hx => Document.get?_next_of_ne hnext hx, hwrites'⟩

theorem Package.place_ok (hid : p.id ≠ "") (hget : desk.behind.registry.current.get? p.id = some m)
    (hwrites : Daemon.Writes none desk.behind) :
    ∃ placed d, (p.place Daemon.manager existed answer).perform desk
        = (.ok placed, { desk with behind := d }) ∧
      Changed desk.behind d p.id
        { m with scope := if existed = true ∧ p.targets ≠ [] then p.scope else m.scope } := by
  rw [place]
  by_cases hasked : existed = true ∧ p.targets ≠ []
  · rw [if_pos (by simpa using hasked), if_pos hasked]
    have hm := (mutationOf_setScope p.id .replace (Target.scopeOf p.targets)).trans
      (neededId_map_eq_ok.mpr ⟨hid, rfl⟩)
    obtain ⟨d, hcall, hchanged⟩ := change_edit desk hm hget rfl (by simp) hwrites
    exact ⟨_, d, hcall, hchanged⟩
  · rw [if_neg (by simpa using hasked), if_neg hasked]
    exact ⟨answer, desk.behind, rfl, .refl hget hwrites⟩

theorem Package.wake_ok (hid : p.id ≠ "") (hget : desk.behind.registry.current.get? p.id = some m)
    (hwrites : Daemon.Writes none desk.behind) :
    ∃ last d, (p.wake Daemon.manager enable existed answer).perform desk
        = (.ok last, { desk with behind := d }) ∧
      Changed desk.behind d p.id { m with enabled := m.enabled || existed && enable } := by
  rw [wake]
  cases hasked : existed && enable with
  | true =>
    obtain ⟨d, hcall, hchanged⟩ :=
      change_switch desk (.enable { moduleId := p.id }) true hid rfl hget hwrites
    rw [if_pos rfl, Bool.or_true]
    exact ⟨_, d, hcall, hchanged⟩
  | false =>
    rw [if_neg Bool.false_ne_true, Bool.or_false]
    exact ⟨answer, desk.behind, rfl, .refl hget hwrites⟩

theorem Package.id_ne_empty {p : Package} (hfit : Fit (p.fresh enable)) : p.id ≠ "" := by
  intro hempty
  have hblank : Text.allBlank p.id.toList = false := hfit.id_not_blank
  rw [hempty] at hblank
  cases hblank

/-- The changes go by whether the module was there. -/
theorem Package.perform_changes
    (hkeyed : ∀ id m, desk.behind.registry.current.get? id = some m → m.id = id) :
    (p.changes Daemon.manager enable).perform desk = Act.perform (do
      let existed := (desk.behind.registry.current.get? p.id).isSome
      let installed ← p.bring Daemon.manager enable
      let placed ← p.place Daemon.manager existed installed
      let last ← p.wake Daemon.manager enable existed placed
      print ((if existed then "Updated " else "Installed ") ++ p.id ++ " "
        ++ versionText last.registryVersion)) desk := by
  have hfind : find? desk.behind.getRegistry.modules p.id
      = (desk.behind.registry.current.get? p.id).map Module.toInfo := find?_toInfo hkeyed p.id
  rw [changes, Act.perform_bind_ok (listing_ok desk), hfind, Option.isSome_map]

/-- **An install of a module that is there makes of it what the line says**, if it is not
refused. -/
theorem Package.install_updates
    (hkeyed : ∀ id m, desk.behind.registry.current.get? id = some m → m.id = id)
    (hfit : Fit (p.fresh enable)) (hget : desk.behind.registry.current.get? p.id = some m)
    (hwrites : Daemon.Writes none desk.behind) (hasked : ¬ (enable = true ∧ p.targets = [])) :
    ∃ done, (p.install Daemon.manager enable).perform desk = (.ok (), done) ∧
      Changed desk.behind done.behind p.id (m.updated p enable) := by
  obtain ⟨installed, d₁, hbring, hbrought⟩ := p.bring_there enable desk hfit hget hwrites
  obtain ⟨placed, d₂, hplace, hplaced⟩ := p.place_ok true installed { desk with behind := d₁ }
    (id_ne_empty enable hfit) hbrought.there hbrought.writes
  obtain ⟨last, d₃, hwake, hwoken⟩ := p.wake_ok enable true placed { desk with behind := d₂ }
    (id_ne_empty enable hfit) hplaced.there hplaced.writes
  rw [p.install_eq _ enable hasked, p.perform_changes enable desk hkeyed, hget]
  dsimp only
  rw [Option.isSome_some, Act.perform_bind_ok hbring, Act.perform_bind_ok hplace,
    Act.perform_bind_ok hwake]
  refine ⟨_, Act.perform_print _ _, ?_⟩
  have hnew : m.updated p enable = { m with
      entryPoints := p.entries
      priority := p.priority
      scope := if true = true ∧ p.targets ≠ [] then p.scope else m.scope
      enabled := m.enabled || true && enable } := by
    by_cases htargets : p.targets = [] <;> simp [Module.updated, htargets]
  rw [hnew]
  exact (hbrought.trans hplaced).trans hwoken

/-- **An install puts a module in that is not there**, if it is not refused. -/
theorem Package.install_adds
    (hkeyed : ∀ id m, desk.behind.registry.current.get? id = some m → m.id = id)
    (hfit : Fit (p.fresh enable)) (hget : desk.behind.registry.current.get? p.id = none)
    (hwrites : Daemon.Writes none desk.behind) (hasked : ¬ (enable = true ∧ p.targets = [])) :
    ∃ done, (p.install Daemon.manager enable).perform desk = (.ok (), done) ∧
      Changed desk.behind done.behind p.id
        { p.fresh enable with installSeq := done.behind.registry.current.nextSeq } := by
  obtain ⟨installed, d, hbring, hbrought⟩ := p.bring_new enable desk hfit hget hwrites
  rw [p.install_eq _ enable hasked, p.perform_changes enable desk hkeyed, hget]
  dsimp only
  rw [Option.isSome_none, Act.perform_bind_ok hbring]
  exact ⟨_, rfl, hbrought⟩

end

/-! ## Enabling -/

/-- The module would be enabled and have no scope: the line gives none, and it has none
that it could keep. -/
def Package.EndsScopeless (p : Package) (d : Document) : Prop :=
  p.targets = [] ∧ ∀ old, d.get? p.id = some old → old.scope = .apps []

/-- What an install comes to that is to enable the module as well. -/
structure Package.Enabling (p : Package) (endpoint : String) (desk : Desk Daemon)
    (result : Except Failure Unit × Desk Daemon) : Prop where
  refused_iff : result.1 = .error (.emptyScope p.id) ↔ p.targets = []
  unchanged : result.1 = .error (.emptyScope p.id) → result.2 = desk
  /-- Whatever would be left without a scope is refused. -/
  cautious : p.EndsScopeless desk.behind.registry.current → result.1 = .error (.emptyScope p.id)
  /-- What is refused besides are the modules that have a scope to keep. -/
  overcautious_iff : result.1 = .error (.emptyScope p.id) ∧
      ¬ p.EndsScopeless desk.behind.registry.current ↔
    p.targets = [] ∧ ∃ old, desk.behind.registry.current.get? p.id = some old ∧
      old.scope ≠ .apps []
  /-- All others are enabled with the scope that is given. -/
  enabled : p.targets ≠ [] →
    (∀ id m, desk.behind.registry.current.get? id = some m → m.id = id) →
    Fit (p.fresh true) → Daemon.Writes none desk.behind →
    ∃ new, result.1 = .ok () ∧ Changed desk.behind result.2.behind p.id new ∧
      new.enabled = true ∧ new.scope = p.scope ∧ new.entryPoints = p.entries ∧
      new.priority = p.priority

/-- **An install that is to enable the module goes by the targets on the line.** If
there is none it is refused, and nothing is changed; with fit code and a store that
can be written every other one is made, and leaves the module enabled with the scope
that is given. Nothing is ever enabled without a scope. But a module that has a scope
already is refused as well, although without the word to enable it, it would have kept it. -/
theorem install_enabled_iff (p : Package) (endpoint : String) (desk : Desk Daemon) :
    p.Enabling endpoint desk
      (((Command.modulesInstall p.id p.entries p.priority p.targets true).run
        Daemon.manager endpoint).perform desk) := by
  have hrun : (Command.modulesInstall p.id p.entries p.priority p.targets true).run
      Daemon.manager endpoint = p.install Daemon.manager true := rfl
  rw [hrun]
  obtain ⟨hrefused, hsame⟩ := installModule_refused_iff Daemon.manager p true desk
  simp only [true_and] at hrefused hsame
  refine ⟨hrefused, fun h => congrArg Prod.snd (hsame (hrefused.mp h)),
    fun h => hrefused.mpr h.1, ?_, fun htargets hkeyed hfit hwrites => ?_⟩
  · rw [hrefused]
    constructor
    · rintro ⟨htargets, hkept⟩
      refine ⟨htargets, Classical.byContradiction fun hnone => hkept ⟨htargets, fun old hold => ?_⟩⟩
      exact Classical.byContradiction fun hscope => hnone ⟨old, hold, hscope⟩
    · rintro ⟨htargets, old, hold, hscope⟩
      exact ⟨htargets, fun h => hscope (h.2 old hold)⟩
  · have hasked : ¬ (true = true ∧ p.targets = []) := fun h => htargets h.2
    cases hget : desk.behind.registry.current.get? p.id with
    | none =>
      obtain ⟨done, hmade, hchanged⟩ := p.install_adds true desk hkeyed hfit hget hwrites hasked
      rw [hmade]
      exact ⟨_, rfl, hchanged, rfl, rfl, rfl, rfl⟩
    | some old =>
      obtain ⟨done, hmade, hchanged⟩ := p.install_updates true desk hkeyed hfit hget hwrites hasked
      rw [hmade]
      exact ⟨_, rfl, hchanged, Bool.or_true _, if_neg htargets, rfl, rfl⟩

section Kept

/-- A module that is disabled and has a scope. -/
def kept : Module := {
  id := "hooks"
  enabled := false
  scope := .apps [{ appId := "app" }]
  entryPoints := [{ codePath := "hooks.so", symbol := "init" }]
  installSeq := 1 }

/-- A desk before a registry that has this module and no other. -/
def keptDesk : Desk Daemon where
  behind := unsaved { version := 1, nextSeq := 1, modules := Keyed.empty.insert "hooks" kept }

theorem keptDesk_get? {id : String} {m : Module}
    (h : keptDesk.behind.registry.current.get? id = some m) : id = "hooks" ∧ m = kept := by
  have h : (Keyed.empty.insert "hooks" kept).get? id = some m := h
  rw [Keyed.get?_insert] at h
  split at h
  next hid => exact ⟨hid, (Option.some.inj h).symm⟩
  next => exact nomatch h

theorem fit_kept (targets : List Target) :
    Fit (Package.fresh { id := "hooks", entries := kept.entryPoints, targets } true) where
  id_not_blank := show Text.allBlank "hooks".toList = false by decide
  some_entry_point := List.cons_ne_nil _ _
  no_blank_path e he := by
    cases List.mem_singleton.mp he
    decide

/-- With a target on the line it is enabled, and has that scope. -/
theorem install_enabled_iff_given :
    ∃ done new, ((Command.modulesInstall "hooks" kept.entryPoints 0 [.all] true).run
        Daemon.manager "").perform keptDesk = (.ok (), done) ∧
      Changed keptDesk.behind done.behind "hooks" new ∧ new.enabled = true ∧ new.scope = .all := by
  have hmade := install_enabled_iff
    { id := "hooks", entries := kept.entryPoints, targets := [.all] } "" keptDesk
  obtain ⟨new, hok, hchanged, hon, hscope, _⟩ := hmade.enabled (by decide)
    (fun id m hm => by
      obtain ⟨rfl, rfl⟩ := keptDesk_get? hm
      rfl)
    (fit_kept _) (unsaved_writes _)
  exact ⟨_, new, Prod.ext hok rfl, hchanged, hon, hscope⟩

/-- Without one it is refused, although it has a scope: nothing else speaks against it,
and with that scope it would have been enabled. -/
theorem install_refuses_kept_scope :
    let p : Package := { id := "hooks", entries := kept.entryPoints }
    Fit (p.fresh true) ∧ Daemon.Writes none keptDesk.behind ∧
      keptDesk.behind.registry.current.get? p.id = some kept ∧
      ¬ p.EndsScopeless keptDesk.behind.registry.current ∧
      ((kept.updated p true).enabled = true ∧ (kept.updated p true).scope ≠ .apps []) ∧
      ((Command.modulesInstall p.id p.entries p.priority p.targets true).run
        Daemon.manager "").perform keptDesk = (.error (.emptyScope "hooks"), keptDesk) := by
  intro p
  have hget : keptDesk.behind.registry.current.get? p.id = some kept := rfl
  refine ⟨fit_kept [], unsaved_writes _, hget, fun h => ?_, ⟨rfl, by decide⟩, rfl⟩
  exact absurd (h.2 kept hget) (by decide)

end Kept

end Control

end Interpose
