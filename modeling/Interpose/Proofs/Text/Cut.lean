/-
Interpose.Proofs.Text.Cut — which texts a cut finds, and what trimming leaves.

A first cut leaves no separator in front of itself, and so there is one
way only to cut a text (`cutFirst?_eq_some_iff`). Trimming takes blanks
away at both ends, and nothing else (`padded_trim`); of a text that begins
and ends with something else it takes exactly what was put around it
(`trim_of_padded`).
-/
import Interpose.Text.Blank
import Interpose.Text.Cut

namespace Interpose.Text

/-! ## Cutting -/

section Cut

variable {α : Type} [DecidableEq α] {sep : α} {cs a b : List α}

theorem cutFirst?_eq_none_iff : cutFirst? sep cs = none ↔ sep ∉ cs := by
  induction cs with
  | nil => simp [cutFirst?]
  | cons x r ih =>
    by_cases hx : x = sep
    · simp [cutFirst?, hx]
    · simp [cutFirst?, hx, ih, Ne.symm hx]

/-- **A first cut is at the first separator.** -/
theorem cutFirst?_eq_some_iff : cutFirst? sep cs = some (a, b) ↔ cs = a ++ sep :: b ∧ sep ∉ a := by
  induction cs generalizing a with
  | nil => simp [cutFirst?]
  | cons x r ih =>
    by_cases hx : x = sep
    · subst hx
      cases a with
      | nil => simp [cutFirst?]
      | cons y a' =>
        rw [cutFirst?, if_pos rfl]
        constructor
        · intro h
          cases h
        · rintro ⟨heq, hfirst⟩
          exact absurd ((List.cons.inj heq).1 ▸ List.mem_cons_self) hfirst
    · rw [cutFirst?, if_neg hx, Option.map_eq_some_iff]
      constructor
      · rintro ⟨⟨a', b'⟩, hcut, heq⟩
        cases heq
        obtain ⟨rfl, hfirst⟩ := ih.mp hcut
        exact ⟨rfl, by simpa [Ne.symm hx] using hfirst⟩
      · rintro ⟨heq, hfirst⟩
        cases a with
        | nil => exact absurd (List.cons.inj heq).1 hx
        | cons y a' =>
          obtain ⟨rfl, rfl⟩ := List.cons.inj heq
          exact ⟨(a', b), ih.mpr ⟨rfl, fun h => hfirst (List.mem_cons_of_mem _ h)⟩, rfl⟩

theorem dropFinal?_eq_some_iff : dropFinal? sep cs = some a ↔ cs = a ++ [sep] := by
  rw [dropFinal?, ← List.reverse_inj, List.reverse_append, List.reverse_singleton,
    List.singleton_append]
  cases cs.reverse with
  | nil => simp
  | cons x r =>
    by_cases hx : x = sep
    · simp [hx, List.reverse_eq_iff]
    · simp [hx]

end Cut

/-! ## Trimming -/

variable {core cs : List Char}

/-- The text is the core with blanks around it. -/
inductive Padded (core : List Char) : List Char → Prop
  | around {before after : List Char} (blankBefore : allBlank before = true)
      (blankAfter : allBlank after = true) : Padded core (before ++ core ++ after)

theorem Padded.refl (core : List Char) : Padded core core := by
  simpa using @Padded.around core [] [] rfl rfl

theorem Padded.mem (h : Padded core cs) {c : Char} (hc : c ∈ cs) :
    c ∈ core ∨ isBlank c = true := by
  obtain ⟨hbefore, hafter⟩ := h
  rcases List.mem_append.mp hc with hc | hc
  · exact (List.mem_append.mp hc).symm.imp_right (List.all_eq_true.mp hbefore c)
  · exact .inr (List.all_eq_true.mp hafter c hc)

theorem Padded.subset (h : Padded core cs) {c : Char} (hc : c ∈ core) : c ∈ cs := by
  obtain ⟨_, _⟩ := h
  exact List.mem_append_left _ (List.mem_append_right _ hc)

/-- **Trimming takes blanks away, and only at the ends.** -/
theorem padded_trim (cs : List Char) : Padded (trim cs) cs := by
  have hstart : cs = cs.takeWhile isBlank ++ trimStart cs :=
    List.takeWhile_append_dropWhile.symm
  have hend : trimStart cs
      = trim cs ++ ((trimStart cs).reverse.takeWhile isBlank).reverse := by
    rw [trim, trimEnd, ← List.reverse_append, List.takeWhile_append_dropWhile,
      List.reverse_reverse]
  have hboth : cs = cs.takeWhile isBlank ++ trim cs
      ++ ((trimStart cs).reverse.takeWhile isBlank).reverse := by
    rw [List.append_assoc, ← hend, ← hstart]
  have hpadded := @Padded.around (trim cs) (cs.takeWhile isBlank)
    ((trimStart cs).reverse.takeWhile isBlank).reverse List.all_takeWhile
    (by rw [allBlank, List.all_reverse]; exact List.all_takeWhile)
  rwa [← hboth] at hpadded

theorem trimStart_of_head? (h : ∀ c ∈ cs.head?, isBlank c = false) : trimStart cs = cs := by
  cases cs with
  | nil => rfl
  | cons c r => exact List.dropWhile_cons_of_neg (by simpa using h c rfl)

theorem trimEnd_of_getLast? (h : ∀ c ∈ cs.getLast?, isBlank c = false) : trimEnd cs = cs := by
  have hrev : trimStart cs.reverse = cs.reverse :=
    trimStart_of_head? (by rwa [List.head?_reverse])
  rw [trimEnd]
  exact (congrArg List.reverse hrev).trans cs.reverse_reverse

/-- **What is put around a text is what trimming takes away**, if the text
does not itself begin or end with a blank. -/
theorem trim_of_padded (h : Padded core cs) (hne : core ≠ [])
    (hhead : ∀ c ∈ core.head?, isBlank c = false)
    (hlast : ∀ c ∈ core.getLast?, isBlank c = false) : trim cs = core := by
  obtain ⟨hbefore, hafter⟩ := h
  rename_i before after
  have hstart : trimStart (before ++ core ++ after) = core ++ after := by
    rw [List.append_assoc]
    refine (List.dropWhile_append_of_pos (List.all_eq_true.mp hbefore)).trans
      (trimStart_of_head? fun c hc => hhead c ?_)
    rwa [List.head?_append, Option.or_of_isSome (by simpa using hne)] at hc
  have hend : trimEnd (core ++ after) = trimEnd core := by
    rw [trimEnd, List.reverse_append, List.dropWhile_append_of_pos, trimEnd]
    simpa [allBlank] using hafter
  rw [trim, hstart, hend, trimEnd_of_getLast? hlast]

end Interpose.Text
