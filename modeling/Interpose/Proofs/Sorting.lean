/-
Interpose.Proofs.Sorting — lists whose members can be told apart.

Chains are sorted, and so are modules. It does not matter whether some
members are taken out before or after (`filter_mergeSort`); and where no two
members may change places, it does not matter in what order they were
given (`mergeSort_eq_of_perm`).
-/
namespace Interpose

/-! ## Keys -/

/-- A key that no two members share tells its member. -/
theorem eq_of_pairwise_ne {α β : Type} {l : List α} {f : α → β}
    (h : l.Pairwise fun a b => f a ≠ f b) {a b : α} (ha : a ∈ l) (hb : b ∈ l) (heq : f a = f b) :
    a = b := by
  have hne := h.imp (S := fun a b => f a = f b → a = b) fun hne heq => absurd heq hne
  have hflip := h.imp (S := fun a b => f b = f a → b = a) fun hne heq => absurd heq.symm hne
  exact hne.forall_of_forall_of_flip (fun _ _ _ => rfl) hflip ha hb heq

/-- Along a list on which two numbers rise, they compare alike. -/
theorem le_iff_of_rising {α : Type} {l : List α} {f g : α → Nat}
    (hf : l.Pairwise fun a b => f a < f b) (hg : l.Pairwise fun a b => g a < g b) :
    ∀ a ∈ l, ∀ b ∈ l, (f a ≤ f b ↔ g a ≤ g b) := by
  have hboth := List.pairwise_and_iff.mpr ⟨hf, hg⟩
  intro a ha b hb
  refine List.Pairwise.forall_of_forall_of_flip
    (R := fun a b : α => f a ≤ f b ↔ g a ≤ g b) (fun _ _ => by simp) ?_ ?_ ha hb
  · exact hboth.imp fun ⟨h₁, h₂⟩ => by omega
  · exact hboth.imp fun ⟨h₁, h₂⟩ => by simp only [flip]; omega

/-- Lists that look alike, look alike member by member. -/
theorem forall_mem_zip_of_map_eq {α β : Type} {f : α → β} {l₁ l₂ : List α}
    (h : l₁.map f = l₂.map f) : ∀ x ∈ l₁.zip l₂, f x.1 = f x.2 := by
  induction l₁ generalizing l₂ with
  | nil => intro x hx; rw [List.zip_nil_left] at hx; exact absurd hx List.not_mem_nil
  | cons a l₁ ih =>
    cases l₂ with
    | nil => cases h
    | cons b l₂ =>
      rw [List.map_cons, List.map_cons] at h
      obtain ⟨hab, htail⟩ := List.cons.inj h
      intro x hx
      rcases List.mem_cons.mp hx with rfl | hx
      · exact hab
      · exact ih htail x hx

/-! ## Kinds -/

/-- A list has one place where members of one kind give way to members of the other. -/
theorem append_inj_of_kinds {α : Type} {q : α → Bool} {k₁ k₂ l₁ l₂ : List α}
    (h : k₁ ++ k₂ = l₁ ++ l₂) (hk₁ : ∀ a ∈ k₁, q a = false) (hk₂ : ∀ a ∈ k₂, q a = true)
    (hl₁ : ∀ a ∈ l₁, q a = false) (hl₂ : ∀ a ∈ l₂, q a = true) : k₁ = l₁ ∧ k₂ = l₂ := by
  have hlater : ∀ {l l' : List α}, (∀ a ∈ l, q a = false) → (∀ a ∈ l', q a = true) →
      (l ++ l').filter q = l' := by
    intro l l' hl hl'
    rw [List.filter_append, List.filter_eq_nil_iff.mpr fun a ha => by simp [hl a ha],
      List.nil_append, List.filter_eq_self.mpr hl']
  have h₂ : k₂ = l₂ := by rw [← hlater hk₁ hk₂, h, hlater hl₁ hl₂]
  exact ⟨List.append_cancel_right (h₂ ▸ h), h₂⟩

/-! ## Sorting -/

section Sorting

variable {α : Type} {le : α → α → Bool}

/-- Where no two members may change places, sorting forgets the order it was given. -/
theorem mergeSort_eq_of_perm {l₁ l₂ : List α}
    (trans : ∀ a b c, le a b = true → le b c = true → le a c = true)
    (total : ∀ a b, (le a b || le b a) = true)
    (strict : ∀ a ∈ l₁, ∀ b ∈ l₁, le a b = true → le b a = true → a = b)
    (h : l₁.Perm l₂) : l₁.mergeSort le = l₂.mergeSort le := by
  have hperm : (l₁.mergeSort le).Perm (l₂.mergeSort le) :=
    (List.mergeSort_perm l₁ le).trans (h.trans (List.mergeSort_perm l₂ le).symm)
  refine hperm.eq_of_pairwise ?_ (List.pairwise_mergeSort trans total l₁)
    (List.pairwise_mergeSort trans total l₂)
  intro a b ha hb
  have ha' := List.mem_mergeSort.mp ha
  have hb' := h.symm.subset (List.mem_mergeSort.mp hb)
  exact strict a ha' b hb'

/-- Members may be taken out of a list before or after it is sorted. -/
theorem filter_mergeSort (p : α → Bool)
    (trans : ∀ a b c, le a b = true → le b c = true → le a c = true)
    (total : ∀ a b, (le a b || le b a) = true) (l : List α) :
    (l.mergeSort le).filter p = (l.filter p).mergeSort le := by
  -- where a member stands among the others is told by `le` alone
  have hplace : ∀ (a : α) (l : List α), ∃ l₁ l₂, (a :: l).mergeSort le = l₁ ++ a :: l₂ ∧
      l.mergeSort le = l₁ ++ l₂ ∧ (∀ b ∈ l₁, le a b = false) ∧ ∀ b ∈ l₂, le a b = true := by
    intro a l
    obtain ⟨l₁, l₂, hcons, htail, hbefore⟩ := List.mergeSort_cons trans total a l
    have hsorted := List.pairwise_mergeSort trans total (a :: l)
    rw [hcons] at hsorted
    refine ⟨l₁, l₂, hcons, htail, fun b hb => by simpa using hbefore b hb, ?_⟩
    exact (List.pairwise_cons.mp (List.pairwise_append.mp hsorted).2.1).1
  induction l with
  | nil => rw [List.mergeSort_nil, List.filter_nil, List.mergeSort_nil]
  | cons a l ih =>
    obtain ⟨l₁, l₂, hcons, htail, hbefore, hafter⟩ := hplace a l
    have hrest : (l.filter p).mergeSort le = l₁.filter p ++ l₂.filter p := by
      rw [← ih, htail, List.filter_append]
    rw [hcons, List.filter_append]
    cases hp : p a with
    | false => rw [List.filter_cons_of_neg (by simp [hp]), List.filter_cons_of_neg (by simp [hp]),
        hrest]
    | true =>
      rw [List.filter_cons_of_pos hp, List.filter_cons_of_pos hp]
      obtain ⟨k₁, k₂, kcons, ktail, kbefore, kafter⟩ := hplace a (l.filter p)
      obtain ⟨rfl, rfl⟩ := append_inj_of_kinds (q := le a) (ktail.symm.trans hrest) kbefore kafter
        (fun b hb => hbefore b (List.mem_filter.mp hb).1)
        (fun b hb => hafter b (List.mem_filter.mp hb).1)
      exact kcons.symm

end Sorting

end Interpose
