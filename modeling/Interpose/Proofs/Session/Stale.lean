/-
Interpose.Proofs.Session.Stale — which modules of a session have become stale.

A session's modules are looked up by their keys, and a process is offered
modules by their ids. That keys are ids is what holds of every registry
that began empty (`Document.Sound`), and so what is stale is just what
would not be offered (`stale_eq`). A change withdraws a module from an
application, or brings it back, or does neither of the two
(`Withdraws`, `Restores`); and over a whole row of changes the last of
these decides (`Row.turned_iff`).

Main statement: `stale_run`.
-/
import Interpose.Proofs.Registry.Life
import Interpose.Proofs.Registry.Scope
import Interpose.Session.Table

namespace Interpose

open Registry (Document Mutation Deed Row World Store Happening)

variable {d d' : Document} {m : Mutation} {app : AppDescriptor} {id : String}

namespace Registry

namespace Document

/-! ## What an application is served -/

/-- A module stands under the id, and is meant for the application. -/
def Serves (d : Document) (app : AppDescriptor) (id : String) : Prop :=
  ∃ m, d.get? id = some m ∧ m.appliesTo app = true

theorem serves_iff_of_get? {m : Module} (h : d.get? id = some m) :
    d.Serves app id ↔ m.enabled = true ∧ m.scope.covers app = true := by
  rw [Serves, h, ← Module.appliesTo_iff]
  simp

theorem not_serves_of_get?_eq_none (h : d.get? id = none) : ¬ d.Serves app id := by
  rw [Serves, h]
  exact nofun

theorem mem_stale {ids : List String} : id ∈ d.stale app ids ↔ id ∈ ids ∧ ¬ d.Serves app id := by
  rw [stale, List.mem_filter]
  cases hget : d.get? id <;> simp [Serves, hget]

/-- **What is stale is what would not be offered**, in its order, and as often
as it is there. -/
theorem Sound.stale_eq (hd : d.Sound) (app : AppDescriptor) (ids : List String) :
    d.stale app ids = ids.filter fun id => decide (id ∉ (d.applicable app).map (·.id)) := by
  refine List.filter_congr fun id _ => ?_
  rw [decide_not]
  congr 1
  rw [Bool.eq_iff_iff, decide_eq_true_iff, hd.mem_offered]
  exact Option.any_eq_true _ _

/-! ## What changes that -/

/-- The change takes a module from an application: it takes the module out,
disables it, or confines it to others. -/
inductive Withdraws (d : Document) (app : AppDescriptor) (id : String) : Mutation → Prop
  | uninstall : Withdraws d app id (.uninstall id)
  | disable : Withdraws d app id (.disable id)
  | confine {m : Module} {mode : ScopeMode} {given : ModuleScope} (there : d.get? id = some m)
      (outside : (m.scope.edit mode given).covers app = false) :
    Withdraws d app id (.setScope id mode given)

/-- The change brings a module to an application: it puts one in that applies,
enables one that covers the application, or has one that is enabled cover it. -/
inductive Restores (d : Document) (app : AppDescriptor) (id : String) : Mutation → Prop
  | install {n : Module} (named : n.id = id) (missing : d.get? id = none)
      (applies : n.appliesTo app = true) : Restores d app id (.install n)
  | enable {m : Module} (there : d.get? id = some m) (covers : m.scope.covers app = true) :
    Restores d app id (.enable id)
  | widen {m : Module} {mode : ScopeMode} {given : ModuleScope} (there : d.get? id = some m)
      (enabled : m.enabled = true) (inside : (m.scope.edit mode given).covers app = true) :
    Restores d app id (.setScope id mode given)

theorem Withdraws.moduleId (h : d.Withdraws app id m) : m.moduleId = id := by
  cases h <;> rfl

theorem Restores.moduleId (h : d.Restores app id m) : m.moduleId = id := by
  cases h with
  | install named _ _ => exact named
  | _ => rfl

/-- What a change comes to for what is offered. -/
structure Turns (d : Document) (m : Mutation) (d' : Document) (app : AppDescriptor)
    (id : String) : Prop where
  withdraws : d.Withdraws app id m → ¬ d'.Serves app id
  restores : d.Restores app id m → d'.Serves app id
  keeps : ¬ d.Withdraws app id m → ¬ d.Restores app id m → (d'.Serves app id ↔ d.Serves app id)

/-- A change of another module, or one that leaves this one as it is for the
application, comes to nothing. -/
theorem Turns.of_same (hw : ¬ d.Withdraws app id m) (hr : ¬ d.Restores app id m)
    (h : d'.Serves app id ↔ d.Serves app id) : Turns d m d' app id :=
  ⟨fun h => absurd h hw, fun h => absurd h hr, fun _ _ => h⟩

/-- What a change comes to for a module that is not there. -/
theorem turns_of_none (h : d.next m = .ok d') (hnone : d.get? m.moduleId = none) :
    Turns d m d' app m.moduleId := by
  obtain ⟨n, rfl, -, -, hget⟩ := get?_next_of_none h hnone
  have hnew : d'.Serves app n.id ↔ n.appliesTo app = true := by
    rw [serves_iff_of_get? hget, Module.appliesTo_iff]
  refine ⟨fun hw => (nomatch hw), fun hr => ?_, fun _ hr => ?_⟩
  · cases hr with
    | install _ _ applies => exact hnew.mpr applies
  · have hno : ¬ d'.Serves app n.id := fun hserves => hr (.install rfl hnone (hnew.mp hserves))
    exact iff_of_false hno (not_serves_of_get?_eq_none hnone)

/-- What a change comes to for a module that is there. -/
theorem turns_of_some (h : d.next m = .ok d') {old : Module} (hold : d.get? m.moduleId = some old) :
    Turns d m d' app m.moduleId := by
  have hedit := (get?_next_of_some h hold).1
  have hwas : d.Serves app m.moduleId ↔ old.enabled = true ∧ old.scope.covers app = true :=
    serves_iff_of_get? hold
  cases m with
  | install n =>
    refine .of_same (fun hw => (nomatch hw)) (fun hr => ?_) ?_
    · cases hr with
      | install _ missing _ => exact nomatch missing.symm.trans hold
    · rw [hwas, serves_iff_of_get? hedit]
  | uninstall id =>
    have hgone : ¬ d'.Serves app id := not_serves_of_get?_eq_none hedit
    exact ⟨fun _ => hgone, fun hr => (nomatch hr), fun hw _ => absurd .uninstall hw⟩
  | enable id =>
    have hnew : d'.Serves app id ↔ old.scope.covers app = true :=
      (serves_iff_of_get? hedit).trans (and_iff_right rfl)
    refine ⟨fun hw => (nomatch hw), fun hr => ?_, fun _ hr => ?_⟩
    · cases hr with
      | enable there covers =>
        cases there.symm.trans hold
        exact hnew.mpr covers
    · have houtside : old.scope.covers app ≠ true := fun hcovers => hr (.enable hold hcovers)
      exact iff_of_false (fun ho => houtside (hnew.mp ho)) fun ho => houtside (hwas.mp ho).2
  | disable id =>
    have hgone : ¬ d'.Serves app id := fun ho => nomatch ((serves_iff_of_get? hedit).mp ho).1
    exact ⟨fun _ => hgone, fun hr => (nomatch hr), fun hw _ => absurd .disable hw⟩
  | setScope id mode given =>
    have hnew : d'.Serves app id ↔
        old.enabled = true ∧ (old.scope.edit mode given).covers app = true :=
      serves_iff_of_get? hedit
    refine ⟨fun hw ho => ?_, fun hr => ?_, fun hw hr => ?_⟩
    · cases hw with
      | confine there outside =>
        cases there.symm.trans hold
        exact nomatch outside.symm.trans (hnew.mp ho).2
    · cases hr with
      | widen there enabled inside =>
        cases there.symm.trans hold
        exact hnew.mpr ⟨enabled, inside⟩
    · have hinside : (old.scope.edit mode given).covers app = true :=
        Bool.of_not_eq_false fun houtside => hw (.confine hold houtside)
      have hdisabled : old.enabled ≠ true := fun hon => hr (.widen hold hon hinside)
      exact iff_of_false (fun ho => hdisabled (hnew.mp ho).1) fun ho => hdisabled (hwas.mp ho).1
  | setPriority id priority =>
    refine .of_same (fun hw => nomatch hw) (fun hr => nomatch hr) ?_
    rw [hwas, serves_iff_of_get? hedit]

/-- **Every change withdraws a module, or restores it, or leaves it** to an
application as it was. -/
theorem turns_next (h : d.next m = .ok d') (app : AppDescriptor) (id : String) :
    Turns d m d' app id := by
  by_cases hid : id = m.moduleId
  · subst hid
    cases hget : d.get? m.moduleId with
    | none => exact turns_of_none h hget
    | some old => exact turns_of_some h hget
  · refine .of_same (fun hw => hid hw.moduleId.symm) (fun hr => hid hr.moduleId.symm) ?_
    rw [Serves, get?_next_of_ne h hid, Serves]

end Document

/-! ## Changes in a row -/

/-- **The last turn decides.** Where every deed keeps a fact, turns it off or turns
it on, a fact that held at first fails in the end exactly if some deed turned it
off and none turned it on after that. -/
theorem Row.turned_iff {es : List Deed} (h : Row d es d') (holds : Document → Prop)
    (off on : Deed → Prop)
    (hoff : ∀ d m d', d.next m = .ok d' → off ⟨d, m, d'⟩ → ¬ holds d')
    (hon : ∀ d m d', d.next m = .ok d' → on ⟨d, m, d'⟩ → holds d')
    (hkeep : ∀ d m d', d.next m = .ok d' → ¬ off ⟨d, m, d'⟩ → ¬ on ⟨d, m, d'⟩ →
      (holds d' ↔ holds d))
    (hfirst : holds d) :
    ¬ holds d' ↔ ∃ before e later, es = before ++ e :: later ∧ off e ∧ ∀ f ∈ later, ¬ on f := by
  induction h with
  | nil =>
    refine iff_of_false (fun hno => hno hfirst) ?_
    rintro ⟨before, e, later, heq, -⟩
    cases before <;> cases heq
  | @snoc es d₁ d₂ m row next ih =>
    constructor
    · intro hno
      by_cases hlast : off ⟨d₁, m, d₂⟩
      · exact ⟨es, _, [], rfl, hlast, by simp⟩
      · have hnot : ¬ on ⟨d₁, m, d₂⟩ := fun h => hno (hon d₁ m d₂ next h)
        have hno₁ : ¬ holds d₁ := fun h => hno ((hkeep d₁ m d₂ next hlast hnot).mpr h)
        obtain ⟨before, e, later, rfl, he, hlater⟩ := ih.mp hno₁
        refine ⟨before, e, later ++ [⟨d₁, m, d₂⟩], by simp, he, fun f hf => ?_⟩
        rcases List.mem_append.mp hf with hf | hf
        · exact hlater f hf
        · rwa [List.mem_singleton.mp hf]
    · rintro ⟨before, e, later, heq, he, hlater⟩
      rcases List.eq_nil_or_concat later with rfl | ⟨later', f, rfl⟩
      · obtain ⟨-, hlast⟩ := List.append_inj' heq rfl
        cases hlast
        exact hoff d₁ m d₂ next he
      · rw [List.concat_eq_append] at hlater heq
        have heq' : es ++ [⟨d₁, m, d₂⟩] = (before ++ e :: later') ++ [f] := by simpa using heq
        obtain ⟨rfl, hf⟩ := List.append_inj' heq' rfl
        cases hf
        have hno₁ : ¬ holds d₁ := ih.mpr ⟨before, e, later', rfl, he, fun f hf =>
          hlater f (List.mem_append_left _ hf)⟩
        by_cases hlast : off ⟨d₁, m, d₂⟩
        · exact hoff d₁ m d₂ next hlast
        · have hnot := hlater _ List.mem_concat_self
          exact fun h => hno₁ ((hkeep d₁ m d₂ next hlast hnot).mp h)

end Registry

/-! ## Sessions -/

namespace Session

/-- The change withdrew the module from the session's application. -/
def Withdrawn (x : Session) (id : String) (e : Deed) : Prop :=
  e.before.Withdraws x.app id e.mutation

/-- The change brought the module to the session's application. -/
def Restored (x : Session) (id : String) (e : Deed) : Prop :=
  e.before.Restores x.app id e.mutation

variable {x : Session}

theorem mem_stale : id ∈ x.stale d ↔ id ∈ x.moduleIds ∧ ¬ d.Serves x.app id := Document.mem_stale

/-- What holds of the stale modules of a session, now and later. -/
structure Followed (s : Store) (w : World) (x : Session) : Prop where
  /-- The stale modules are those of the session, in its order and as often as they
  are there, which are not among what would be offered now. -/
  complement : x.stale w.live.current = x.moduleIds.filter fun id =>
    decide (id ∉ (w.live.current.applicable x.app).map (·.id))
  /-- These are the modules that are gone, are disabled or do not cover the application. -/
  stale_iff : ∀ id ∈ x.moduleIds, id ∈ x.stale w.live.current ↔
    ∀ m, w.live.current.get? id = some m → m.enabled = false ∨ m.scope.covers x.app = false
  /-- A session that carries what is offered now has none that is stale. -/
  fresh : (∀ id ∈ x.moduleIds, id ∈ (w.live.current.applicable x.app).map (·.id)) →
    x.stale w.live.current = []
  /-- A module that is not stale now is so later exactly if a change withdrew it and
  none restored it after that. -/
  becomes : ∀ later, ∀ id ∈ x.moduleIds, id ∉ x.stale w.live.current →
    (id ∈ x.stale (w.run s later).live.current ↔ ∃ before e rest,
      w.deeds s later = before ++ e :: rest ∧ x.Withdrawn id e ∧ ∀ f ∈ rest, ¬ x.Restored id f)
  /-- A module that is stale now is not so later exactly if a change restored it and
  none withdrew it after that. -/
  ceases : ∀ later, ∀ id ∈ x.stale w.live.current,
    (id ∉ x.stale (w.run s later).live.current ↔ ∃ before e rest,
      w.deeds s later = before ++ e :: rest ∧ x.Restored id e ∧ ∀ f ∈ rest, ¬ x.Withdrawn id f)

/-- **What is stale is what would not be offered, at every moment** of the life of a
registry that began with nothing at its place: modules become stale as they are
withdrawn, and cease to be as they are restored. -/
theorem stale_run (s : Store) (disk : Disk) (hs : List Happening) (x : Session)
    (hmissing : disk.entry? s.path = none) : Followed s ((World.opened s disk).run s hs) x := by
  have hkept := (World.kept_opened hmissing).1.run hs
  have hsound := (World.row_run hmissing hs).sound .empty
  generalize (World.opened s disk).run s hs = w at hkept hsound ⊢
  refine ⟨hsound.stale_eq x.app x.moduleIds, fun id hid => ?_, fun hfresh => ?_,
    fun later id hid hnot => ?_, fun later id hstale => ?_⟩
  · rw [mem_stale, and_iff_right hid, Document.Serves, not_exists]
    refine forall_congr' fun m => ?_
    rw [not_and, Module.appliesTo_iff, Classical.not_and_iff_not_or_not, Bool.not_eq_true,
      Bool.not_eq_true]
  · rw [show x.stale w.live.current = _ from hsound.stale_eq x.app x.moduleIds]
    exact List.filter_eq_nil_iff.mpr fun id hid => by simp [hfresh id hid]
  · have hserves : w.live.current.Serves x.app id :=
      Classical.byContradiction fun h => hnot (mem_stale.mpr ⟨hid, h⟩)
    rw [mem_stale, and_iff_right hid]
    exact (World.row_deeds hkept later).turned_iff (·.Serves x.app id) (x.Withdrawn id)
      (x.Restored id)
      (fun _ _ _ h => (Document.turns_next h x.app id).withdraws)
      (fun _ _ _ h => (Document.turns_next h x.app id).restores)
      (fun _ _ _ h => (Document.turns_next h x.app id).keeps) hserves
  · obtain ⟨hid, hnot⟩ := mem_stale.mp hstale
    rw [mem_stale, and_iff_right hid]
    exact (World.row_deeds hkept later).turned_iff (¬ ·.Serves x.app id) (x.Restored id)
      (x.Withdrawn id)
      (fun _ _ _ h hr => not_not_intro ((Document.turns_next h x.app id).restores hr))
      (fun _ _ _ h => (Document.turns_next h x.app id).withdraws)
      (fun _ _ _ h hr hw => not_congr ((Document.turns_next h x.app id).keeps hw hr)) hnot

/-- A process carries what it was offered and two modules that never were: of the
two that are there, one is disabled, and enabled again after the store could not be
written once. -/
theorem stale_run_disabled :
    let s := Store.withKey ["registry.json"] "key"
    let hooks (id : String) : Module := {
      id, enabled := true, scope := .all, entryPoints := [{ codePath := "hooks.so" }] }
    let hs : List Happening := [.asked (.install (hooks "a")) none,
      .asked (.install (hooks "b")) none, .asked (.disable "b") none,
      .asked (.enable "b") (some (.io .notADirectory))]
    let x : Session := {
      pid := 5, app := { appId := "app" }, moduleIds := ["a", "b", "gone", "b", ""]
      token := "token" }
    Disk.entry? {} s.path = none ∧ Followed s ((World.opened s {}).run s hs) x :=
  ⟨rfl, stale_run _ _ _ _ rfl⟩

end Session

end Interpose
