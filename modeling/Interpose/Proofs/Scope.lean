/-
Interpose.Proofs.Scope — what scopes cover, in either form and after an edit.

The record that travels and the registry's form cover the same
applications, and the second survives the way through the first. Of the
edits, appending is a union in every respect: of what is covered
(`covers_append`), and of the targets listed, of which the new ones follow
the old, each once (`addTargets_eq`). Removing is none of what is covered,
for a target is taken away only where it is listed as such; but it never
widens a scope (`covers_of_remove`). An edit made a second time changes
nothing (`edit_edit`).
-/
import Interpose.Scope

namespace Interpose

/-! ## Two forms -/

namespace ModuleScope

variable {s given : ModuleScope} {app : AppDescriptor}

theorem covers_toWire (s : ModuleScope) (app : AppDescriptor) :
    s.toWire.covers app = s.covers app := by
  cases s <;> rfl

/-- The two forms of a scope say the same. -/
theorem ofWire_toWire (s : ModuleScope) : ofWire s.toWire = s := by
  cases s <;> rfl

theorem isEmpty_toWire {s : ModuleScope} : s.toWire.isEmpty = true ↔ s = .apps [] := by
  cases s with
  | all => simp [toWire, WireScope.isEmpty, WireScope.all]
  | apps targets => simp [toWire, WireScope.isEmpty]

theorem ofWire_of_allApps {w : WireScope} (h : w.allApps = true) : ofWire w = .all := if_pos h

theorem ofWire_of_targets {w : WireScope} (h : w.allApps = false) : ofWire w = .apps w.targets :=
  if_neg (by simp [h])

/-- A record covers what it is read as, also where its flag makes its list mean nothing. -/
theorem covers_ofWire (w : WireScope) (app : AppDescriptor) :
    (ofWire w).covers app = w.covers app := by
  cases hall : w.allApps with
  | true => rw [ofWire_of_allApps hall, WireScope.covers, hall]; rfl
  | false => rw [ofWire_of_targets hall, WireScope.covers, hall]; rfl

/-! ## Adding targets -/

section Targets

variable {old extra : List ScopeTarget} {t : ScopeTarget}

theorem addTargets_cons (old extra : List ScopeTarget) (t : ScopeTarget) :
    addTargets old (t :: extra)
      = addTargets (if old.contains t then old else old ++ [t]) extra := rfl

/-- **The new targets follow the old ones, each once.** -/
theorem addTargets_eq (old extra : List ScopeTarget) :
    ∃ new, addTargets old extra = old ++ new ∧ new.Nodup ∧
      ∀ t, t ∈ new ↔ t ∈ extra ∧ t ∉ old := by
  induction extra generalizing old with
  | nil => exact ⟨[], (List.append_nil old).symm, List.nodup_nil, by simp⟩
  | cons x extra ih =>
    rw [addTargets_cons]
    by_cases hx : x ∈ old
    · obtain ⟨new, heq, hnodup, hmem⟩ := ih old
      refine ⟨new, by rw [if_pos (List.contains_iff_mem.mpr hx), heq], hnodup, fun t => ?_⟩
      rw [hmem, List.mem_cons]
      exact ⟨fun ⟨ht, hold⟩ => ⟨.inr ht, hold⟩,
        fun ⟨ht, hold⟩ => ⟨ht.resolve_left fun h => hold (h ▸ hx), hold⟩⟩
    · obtain ⟨new, heq, hnodup, hmem⟩ := ih (old ++ [x])
      have hnew : x ∉ new := fun h => ((hmem x).mp h).2 List.mem_concat_self
      refine ⟨x :: new, ?_, List.nodup_cons.mpr ⟨hnew, hnodup⟩, fun t => ?_⟩
      · rw [if_neg (by simpa using hx), heq, List.append_assoc, List.singleton_append]
      · rw [List.mem_cons, hmem, List.mem_cons]
        by_cases ht : t = x
        · simp [ht, hx]
        · simp [ht]

theorem mem_addTargets : t ∈ addTargets old extra ↔ t ∈ old ∨ t ∈ extra := by
  obtain ⟨new, heq, -, hmem⟩ := addTargets_eq old extra
  rw [heq, List.mem_append, hmem]
  by_cases ht : t ∈ old <;> simp [ht]

/-- Targets that are all there already are not added. -/
theorem addTargets_of_subset (h : ∀ t ∈ extra, t ∈ old) : addTargets old extra = old := by
  obtain ⟨new, heq, -, hmem⟩ := addTargets_eq old extra
  have hnone : new = [] := List.eq_nil_iff_forall_not_mem.mpr fun t ht =>
    ((hmem t).mp ht).2 (h t ((hmem t).mp ht).1)
  rw [heq, hnone, List.append_nil]

end Targets

/-! ## Edits -/

/-- **Appending covers what was covered and what is appended.** -/
theorem covers_append (s given : ModuleScope) (app : AppDescriptor) :
    (s.append given).covers app = true ↔ s.covers app = true ∨ given.covers app = true := by
  cases s with
  | all => simp [append, covers]
  | apps old =>
    cases given with
    | all => simp [append, covers]
    | apps extra =>
      simp only [append, covers, List.any_eq_true, mem_addTargets, or_and_right, exists_or]

/-- **Removing never widens a scope.** -/
theorem covers_of_remove (h : (s.remove given).covers app = true) : s.covers app = true := by
  cases s with
  | all => rfl
  | apps old =>
    cases given with
    | all => exact nomatch h
    | apps gone =>
      obtain ⟨t, ht, hcovers⟩ := List.any_eq_true.mp h
      exact List.any_eq_true.mpr ⟨t, (List.mem_filter.mp ht).1, hcovers⟩

theorem append_append (s given : ModuleScope) : (s.append given).append given = s.append given := by
  cases s with
  | all => rfl
  | apps old =>
    cases given with
    | all => rfl
    | apps extra =>
      exact congrArg apps (addTargets_of_subset fun t ht => mem_addTargets.mpr (.inr ht))

theorem remove_remove (s given : ModuleScope) : (s.remove given).remove given = s.remove given := by
  cases given with
  | all => cases s <;> rfl
  | apps gone =>
    cases s with
    | all => rfl
    | apps old => simp [remove, List.filter_filter]

/-- **An edit made a second time changes nothing.** -/
theorem edit_edit (s : ModuleScope) (mode : ScopeMode) (given : ModuleScope) :
    (s.edit mode given).edit mode given = s.edit mode given := by
  cases mode with
  | replace => rfl
  | append => exact s.append_append given
  | remove => exact s.remove_remove given

end ModuleScope

end Interpose
