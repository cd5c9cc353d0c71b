/-
Interpose.Proofs.Module.Order — the order that modules are applied in.

Priority, then time of install, then id: whichever number decides first
decides, so that two modules may stand either way only if their ids are
the same. Those keep the order they came in, and so leaving modules out of
a list and putting it into order may be done in either order
(`inOrder_filter`).
-/
import Interpose.Module
import Interpose.Proofs.Sorting

namespace Interpose

section Order

variable {p q r : Int32} {i j k : UInt64} {a b c : String}

theorem appliesBefore_iff : appliesBefore p q i j a b = true ↔
    q < p ∨ (p = q ∧ (i < j ∨ (i = j ∧ a ≤ b))) := by
  simp [appliesBefore]

theorem appliesBefore_trans (h₁ : appliesBefore p q i j a b = true)
    (h₂ : appliesBefore q r j k b c = true) : appliesBefore p r i k a c = true := by
  rw [appliesBefore_iff] at *
  rcases h₁ with hp | ⟨rfl, hi | ⟨rfl, ha⟩⟩
  · rcases h₂ with hq | ⟨rfl, _⟩
    · exact .inl (Int32.lt_trans hq hp)
    · exact .inl hp
  · rcases h₂ with hq | ⟨rfl, hj | ⟨rfl, _⟩⟩
    · exact .inl hq
    · exact .inr ⟨rfl, .inl (UInt64.lt_trans hi hj)⟩
    · exact .inr ⟨rfl, .inl hi⟩
  · rcases h₂ with hq | ⟨rfl, hj | ⟨rfl, hb⟩⟩
    · exact .inl hq
    · exact .inr ⟨rfl, .inl hj⟩
    · exact .inr ⟨rfl, .inr ⟨rfl, String.le_trans ha hb⟩⟩

theorem appliesBefore_total (p q : Int32) (i j : UInt64) (a b : String) :
    (appliesBefore p q i j a b || appliesBefore q p j i b a) = true := by
  rw [Bool.or_eq_true, appliesBefore_iff, appliesBefore_iff]
  by_cases hp : p = q
  · by_cases hi : i = j
    · rcases String.le_total a b with hab | hba
      · exact .inl (.inr ⟨hp, .inr ⟨hi, hab⟩⟩)
      · exact .inr (.inr ⟨hp.symm, .inr ⟨hi.symm, hba⟩⟩)
    · rcases UInt64.lt_or_lt_of_ne hi with hlt | hlt
      · exact .inl (.inr ⟨hp, .inl hlt⟩)
      · exact .inr (.inr ⟨hp.symm, .inl hlt⟩)
  · rcases Int32.lt_or_lt_of_ne hp with hlt | hlt
    · exact .inr (.inl hlt)
    · exact .inl (.inl hlt)

end Order

theorem Module.pairwise_inOrder (ms : List Module) :
    (inOrder ms).Pairwise fun a b => a.before b = true := by
  refine List.pairwise_mergeSort ?_ ?_ ms
  · exact fun _ _ _ => appliesBefore_trans
  · exact fun _ _ => appliesBefore_total _ _ _ _ _ _

namespace ModuleInfo

theorem pairwise_inOrder (ms : List ModuleInfo) :
    (inOrder ms).Pairwise fun a b => a.before b = true := by
  refine List.pairwise_mergeSort ?_ ?_ ms
  · exact fun _ _ _ => appliesBefore_trans
  · exact fun _ _ => appliesBefore_total _ _ _ _ _ _

/-- Along the order priorities fall. -/
theorem priority_le_of_before {a b : ModuleInfo} (h : a.before b = true) :
    b.priority ≤ a.priority := by
  rcases appliesBefore_iff.mp h with hlt | ⟨heq, _⟩
  · exact Int32.le_of_lt hlt
  · exact heq ▸ Int32.le_refl _

/-- **Modules may be left out before or after they are put into order.** -/
theorem inOrder_filter (ms : List ModuleInfo) (keep : ModuleInfo → Bool) :
    (inOrder ms).filter keep = inOrder (ms.filter keep) := by
  refine filter_mergeSort keep ?_ ?_ ms
  · exact fun _ _ _ => appliesBefore_trans
  · exact fun _ _ => appliesBefore_total _ _ _ _ _ _

end ModuleInfo

end Interpose
