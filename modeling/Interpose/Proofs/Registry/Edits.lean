/-
Interpose.Proofs.Registry.Edits — edits of a scope, one after another.

A module's scope is edited by records that travel: each replaces it, is
appended to it or removed from it. What one edit means is said in terms of
what is covered and of the targets listed (`Edit.Means`), and holds at
every step of any row of edits, since it holds of every scope. Over a whole
row no target comes to be listed twice by appending or removing: that is
brought in by what replaces a scope, or was there at the start
(`Once.after`). The registry makes just these edits of a module that it
has, and refuses none of them (`exists_after_edits`).

Main statement: `edits_lawful`.
-/
import Interpose.Proofs.Scope
import Interpose.Proofs.Registry.Document

namespace Interpose

namespace ModuleScope

/-! ## One edit -/

/-- An edit as it is asked for. -/
structure Edit where
  mode : ScopeMode
  given : WireScope
  deriving DecidableEq, Repr

def Edit.apply (e : Edit) (s : ModuleScope) : ModuleScope := s.edit e.mode (ofWire e.given)

/-- What appending a record makes of a scope. -/
structure Appended (s : ModuleScope) (given : WireScope) (s' : ModuleScope) : Prop where
  covers : ∀ app, s'.covers app = true ↔ s.covers app = true ∨ given.covers app = true
  /-- The targets that are new follow the old ones, each once. -/
  targets : ∀ old, s = .apps old → given.allApps = false →
    ∃ new, s' = .apps (old ++ new) ∧ new.Nodup ∧ ∀ t, t ∈ new ↔ t ∈ given.targets ∧ t ∉ old
  /-- Nothing is added to every application, and adding every application gives just that. -/
  all : s = .all ∨ given.allApps = true → s' = .all

/-- What removing a record makes of a scope. -/
structure Removed (s : ModuleScope) (given : WireScope) (s' : ModuleScope) : Prop where
  /-- The targets left are the old ones that are not listed, in order. -/
  targets : ∀ old, s = .apps old → given.allApps = false →
    s' = .apps (old.filter fun t => decide (t ∉ given.targets))
  gone : ∀ left, s' = .apps left → ∀ t ∈ given.targets, t ∉ left
  narrower : ∀ app, s'.covers app = true → s.covers app = true
  /-- Single targets are not taken from every application. -/
  unlisted : s = .all → given.allApps = false → s' = .all
  emptied : given.allApps = true → s' = .apps [] ∧ ∀ app, s'.covers app = false

/-- What an edit means that makes one scope of another. -/
def Edit.Means (e : Edit) (s s' : ModuleScope) : Prop :=
  match e.mode with
  | .replace => ∀ app, s'.covers app = e.given.covers app
  | .append => Appended s e.given s'
  | .remove => Removed s e.given s'

theorem appended (s : ModuleScope) (given : WireScope) :
    Appended s given (s.append (ofWire given)) where
  covers app := by rw [covers_append, covers_ofWire]
  targets := by
    rintro old rfl hgiven
    obtain ⟨new, heq, hnew⟩ := addTargets_eq old given.targets
    exact ⟨new, by rw [ofWire_of_targets hgiven, append, heq], hnew⟩
  all := by
    rintro (rfl | hall)
    · rfl
    · rw [ofWire_of_allApps hall]
      cases s <;> rfl

theorem removed (s : ModuleScope) (given : WireScope) :
    Removed s given (s.remove (ofWire given)) := by
  have htargets : ∀ old, given.allApps = false → (apps old).remove (ofWire given)
      = .apps (old.filter fun t => decide (t ∉ given.targets)) := by
    intro old hgiven
    rw [ofWire_of_targets hgiven, remove]
    simp
  have hemptied : given.allApps = true → s.remove (ofWire given) = .apps [] := by
    intro hall
    rw [ofWire_of_allApps hall]
    cases s <;> rfl
  have hunlisted : given.allApps = false → ModuleScope.all.remove (ofWire given) = .all := by
    intro hgiven
    rw [ofWire_of_targets hgiven]
    rfl
  refine ⟨?_, fun left hleft t ht => ?_, fun app => covers_of_remove, ?_, fun hall => ?_⟩
  · rintro old rfl hgiven
    exact htargets old hgiven
  · cases hgiven : given.allApps with
    | true =>
      rw [hemptied hgiven] at hleft
      cases hleft
      exact List.not_mem_nil
    | false =>
      cases s with
      | all =>
        rw [hunlisted hgiven] at hleft
        cases hleft
      | apps old =>
        rw [htargets old hgiven] at hleft
        cases hleft
        simp [ht]
  · rintro rfl hgiven
    exact hunlisted hgiven
  · rw [hemptied hall]
    exact ⟨rfl, fun _ => rfl⟩

/-- **Every edit of every scope means what it should.** -/
theorem Edit.means (e : Edit) (s : ModuleScope) : e.Means s (e.apply s) := by
  obtain ⟨mode, given⟩ := e
  cases mode with
  | replace => exact covers_ofWire given
  | append => exact appended s given
  | remove => exact removed s given

/-! ## Edits in a row -/

/-- The scope after some edits, made one after another. -/
def after (s : ModuleScope) (es : List Edit) : ModuleScope := es.foldl (fun s e => e.apply s) s

theorem after_concat (s : ModuleScope) (es : List Edit) (e : Edit) :
    s.after (es ++ [e]) = e.apply (s.after es) := by
  rw [after, List.foldl_append]
  rfl

/-- No target is listed twice. -/
def Once : ModuleScope → Prop
  | all => True
  | apps targets => targets.Nodup

/-- The edit does not itself put a target in twice. -/
def Edit.Clean (e : Edit) : Prop := e.mode = .replace → (ofWire e.given).Once

/-- Appending lists no target twice, nor does removing, where none was. -/
theorem Once.apply {s : ModuleScope} (hs : s.Once) {e : Edit} (he : e.Clean) :
    (e.apply s).Once := by
  obtain ⟨mode, given⟩ := e
  cases mode with
  | replace => exact he rfl
  | append =>
    show (s.append (ofWire given)).Once
    cases s with
    | all => trivial
    | apps old =>
      cases hgiven : ofWire given with
      | all => trivial
      | apps extra =>
        obtain ⟨new, heq, hnodup, hmem⟩ := addTargets_eq old extra
        show (addTargets old extra).Nodup
        rw [heq]
        refine List.nodup_append.mpr ⟨hs, hnodup, fun a ha b hb hab => ?_⟩
        exact ((hmem b).mp hb).2 (hab ▸ ha)
  | remove =>
    show (s.remove (ofWire given)).Once
    cases hgiven : ofWire given with
    | all => cases s <;> exact List.nodup_nil
    | apps gone =>
      cases s with
      | all => trivial
      | apps old => exact List.Pairwise.filter _ hs

/-- **A scope that lists targets once goes on to do so.** -/
theorem Once.after {s : ModuleScope} (hs : s.Once) {es : List Edit} (hes : ∀ e ∈ es, e.Clean) :
    (s.after es).Once := by
  induction es generalizing s with
  | nil => exact hs
  | cons e es ih =>
    obtain ⟨he, hes⟩ := List.forall_mem_cons.mp hes
    exact ih (hs.apply he) hes

end ModuleScope

namespace Registry

open ModuleScope (Edit)

/-- The change of the registry that makes an edit. -/
def Mutation.ofEdit (id : String) (e : Edit) : Mutation := .setScope id e.mode (.ofWire e.given)

/-- **The registry makes the edits of a module that it has**, and leaves the rest
of the module as it is. -/
theorem Document.exists_after_edits {d : Document} {id : String} {m : Module}
    (hm : d.get? id = some m) (es : List Edit) :
    ∃ d', d.after (es.map (.ofEdit id)) = .ok d' ∧
      d'.get? id = some { m with scope := m.scope.after es } := by
  induction es generalizing d m with
  | nil => exact ⟨d, rfl, hm⟩
  | cons e es ih =>
    obtain ⟨d₁, hnext⟩ : ∃ d₁, d.next (.ofEdit id e) = .ok d₁ :=
      next_isOk.mpr ⟨nofun, fun _ => by simp [Mutation.ofEdit, Mutation.moduleId, hm]⟩
    have hget : d₁.get? id = some { m with scope := e.apply m.scope } :=
      (get?_next_of_some hnext hm).1
    obtain ⟨d', hafter, hd'⟩ := ih hget
    exact ⟨d', after_cons.mpr ⟨d₁, hnext, hafter⟩, hd'⟩

end Registry

namespace ModuleScope

/-! ## The law -/

/-- What holds of a scope that is edited over and over. -/
structure Lawful (start : ModuleScope) (es : List Edit) : Prop where
  /-- Every edit means what it should of the scope it finds. -/
  means : ∀ before e later, es = before ++ e :: later →
    e.Means (start.after before) (start.after (before ++ [e]))
  /-- Making the edit again makes no difference. -/
  again : ∀ before e later, es = before ++ e :: later →
    start.after (before ++ [e, e]) = start.after (before ++ [e])
  /-- At every moment the scope can be written as a record and read again, and the
  record covers what the scope does. -/
  faithful : ∀ before, before <+: es →
    ofWire (start.after before).toWire = start.after before ∧
      ∀ app, (start.after before).toWire.covers app = (start.after before).covers app
  /-- The records given, too, cover what they are read as, whatever their lists say. -/
  given : ∀ e ∈ es, ∀ app, (ofWire e.given).covers app = e.given.covers app
  /-- No target comes to be listed twice, unless it is so given in place of a scope. -/
  once : start.Once → (∀ e ∈ es, e.Clean) → ∀ before, before <+: es → (start.after before).Once
  /-- These are the edits that the registry makes of a module that it has. -/
  registry : ∀ (d : Registry.Document) id m, d.get? id = some m → m.scope = start →
    ∃ d', d.after (es.map (.ofEdit id)) = .ok d' ∧
      d'.get? id = some { m with scope := start.after es }

/-- **Edits of a scope mean what they cover**, whatever scope they begin with and in
whatever order they come. -/
theorem edits_lawful (start : ModuleScope) (es : List Edit) : Lawful start es where
  means before e _ _ := by
    rw [after_concat]
    exact e.means _
  again before e _ _ := by
    rw [← List.singleton_append, ← List.append_assoc, after_concat, after_concat]
    exact edit_edit ..
  faithful before _ := ⟨ofWire_toWire _, covers_toWire _⟩
  given e _ := covers_ofWire e.given
  once hstart hclean before hpart := hstart.after fun e he => hclean e (hpart.subset he)
  registry := by
    rintro d id m hm rfl
    exact Registry.Document.exists_after_edits hm es

example :
    let browser : ScopeTarget := { appId := "browser" }
    ModuleScope.all.after [⟨.remove, { targets := [browser] }⟩, ⟨.remove, .all⟩,
      ⟨.append, { targets := [browser, browser] }⟩] = .apps [browser] := by decide

end ModuleScope

end Interpose
