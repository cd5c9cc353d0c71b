/-
Interpose.Proofs.Keyed — what a map says under each key.

A map is told by what it answers, key by key: `get?_insert` and
`get?_erase` say what an edit does to the answers, and `ext` that nothing
else is in a map. A map that is written down and read again is the same
one (`ofList_entries`).
-/
import Interpose.Keyed

namespace Interpose

namespace Keyed

variable {α : Type}

/-! ## Entries -/

/-- Keys that rise are distinct, so that one key has one value. -/
theorem value_unique {es : List (String × α)} (h : es.Pairwise fun a b => a.1 < b.1)
    {k : String} {x y : α} (hx : (k, x) ∈ es) (hy : (k, y) ∈ es) : x = y := by
  induction h with
  | nil => exact absurd hx List.not_mem_nil
  | @cons e es hlt _ ih =>
    rcases List.mem_cons.mp hx with hxe | hxs
    · rcases List.mem_cons.mp hy with hye | hys
      · exact (Prod.mk.inj (hxe.trans hye.symm)).2
      · subst hxe
        exact (String.lt_irrefl k (hlt (k, y) hys)).elim
    · rcases List.mem_cons.mp hy with hye | hys
      · subst hye
        exact (String.lt_irrefl k (hlt (k, x) hxs)).elim
      · exact ih hxs hys

theorem mem_insertEntry_self (k : String) (x : α) (es : List (String × α)) :
    (k, x) ∈ insertEntry k x es := by
  induction es with
  | nil => simp [insertEntry]
  | cons e es ih =>
    rw [insertEntry]
    split
    · simp
    · split
      · simp
      · exact List.mem_cons_of_mem e ih

/-- Entries under other keys stay. -/
theorem mem_insertEntry_of_ne {k : String} {x : α} {e : String × α} {es : List (String × α)}
    (hne : e.1 ≠ k) (h : e ∈ es) : e ∈ insertEntry k x es := by
  induction es with
  | nil => exact absurd h List.not_mem_nil
  | cons d ds ih =>
    rw [insertEntry]
    split
    · exact List.mem_cons_of_mem _ h
    · split
      · rename_i hk
        rcases List.mem_cons.mp h with rfl | h
        · exact absurd hk.symm hne
        · exact List.mem_cons_of_mem _ h
      · rcases List.mem_cons.mp h with rfl | h
        · exact List.mem_cons_self
        · exact List.mem_cons_of_mem _ (ih h)

/-! ## Answers -/

variable {m m' : Keyed α}

theorem mem_entries {k : String} {x : α} : (k, x) ∈ m.entries ↔ m.get? k = some x := by
  rw [get?]
  constructor
  · intro h
    cases hfind : m.entries.find? (·.1 == k) with
    | none =>
      have := List.find?_eq_none.mp hfind (k, x) h
      simp at this
    | some e =>
      obtain ⟨hk, hmem⟩ := And.intro (List.find?_some hfind) (List.mem_of_find?_eq_some hfind)
      have hk : e.1 = k := by simpa using hk
      have : e = (k, e.2) := by rw [← hk]
      rw [this] at hmem
      simp [value_unique m.rising hmem h]
  · intro h
    obtain ⟨e, hfind, rfl⟩ := Option.map_eq_some_iff.mp h
    have hk : e.1 = k := by simpa using List.find?_some hfind
    rw [← hk]
    exact List.mem_of_find?_eq_some hfind

theorem get?_eq_none {k : String} : m.get? k = none ↔ ∀ x, (k, x) ∉ m.entries := by
  constructor
  · intro h x hx
    rw [mem_entries, h] at hx
    cases hx
  · intro h
    cases hget : m.get? k with
    | none => rfl
    | some x => exact absurd (mem_entries.mpr hget) (h x)

theorem mem_values {x : α} : x ∈ m.values ↔ ∃ k, m.get? k = some x := by
  rw [values, List.mem_map]
  constructor
  · rintro ⟨⟨k, y⟩, h, rfl⟩
    exact ⟨k, mem_entries.mp h⟩
  · rintro ⟨k, h⟩
    exact ⟨(k, x), mem_entries.mpr h, rfl⟩

@[simp] theorem get?_empty (k : String) : (empty : Keyed α).get? k = none := rfl

theorem get?_insert (m : Keyed α) (k a : String) (x : α) :
    (m.insert k x).get? a = if a = k then some x else m.get? a := by
  by_cases ha : a = k
  · rw [if_pos ha, ha]
    exact mem_entries.mp (mem_insertEntry_self k x m.entries)
  · rw [if_neg ha]
    cases hget : m.get? a with
    | some y => exact mem_entries.mp (mem_insertEntry_of_ne (e := (a, y)) ha (mem_entries.mpr hget))
    | none =>
      refine get?_eq_none.mpr fun y hy => ?_
      rcases mem_insertEntry hy with heq | hmem
      · exact ha (Prod.mk.inj heq).1
      · exact get?_eq_none.mp hget y hmem

theorem get?_erase (m : Keyed α) (k a : String) :
    (m.erase k).get? a = if a = k then none else m.get? a := by
  have hmem : ∀ x, (a, x) ∈ (m.erase k).entries ↔ (a, x) ∈ m.entries ∧ a ≠ k := by
    intro x
    rw [erase, List.mem_filter]
    simp
  by_cases ha : a = k
  · rw [if_pos ha]
    exact get?_eq_none.mpr fun x hx => ((hmem x).mp hx).2 ha
  · rw [if_neg ha]
    cases hget : m.get? a with
    | some y => exact mem_entries.mp ((hmem y).mpr ⟨mem_entries.mpr hget, ha⟩)
    | none => exact get?_eq_none.mpr fun y hy => get?_eq_none.mp hget y ((hmem y).mp hy).1

/-! ## Writing a map down -/

/-- A key above all others goes to the end. -/
theorem insertEntry_last {k : String} {x : α} {es : List (String × α)}
    (h : ∀ e ∈ es, e.1 < k) : insertEntry k x es = es ++ [(k, x)] := by
  induction es with
  | nil => rfl
  | cons e es ih =>
    have he := h e List.mem_cons_self
    rw [insertEntry, if_neg (String.lt_asymm he), if_neg (Std.ne_of_lt he).symm,
      ih fun d hd => h d (List.mem_cons_of_mem e hd), List.cons_append]

/-- **A map can be read back from its entries.** -/
theorem ofList_entries (m : Keyed α) : ofList m.entries = m := by
  have hentries : ∀ (es : List (String × α)) (n : Keyed α),
      (n.entries ++ es).Pairwise (fun a b => a.1 < b.1) →
      (es.foldl (fun m p => m.insert p.1 p.2) n).entries = n.entries ++ es := by
    intro es
    induction es with
    | nil => intro n _; simp
    | cons e es ih =>
      intro n hrising
      have hlast : (n.insert e.1 e.2).entries = n.entries ++ [e] := by
        refine insertEntry_last fun d hd => ?_
        exact (List.pairwise_append.mp hrising).2.2 d hd e List.mem_cons_self
      rw [List.foldl_cons, ih, hlast, List.append_assoc, List.singleton_append]
      rw [hlast, List.append_assoc, List.singleton_append]
      exact hrising
  have h := hentries m.entries empty m.rising
  obtain ⟨es, hes⟩ := m
  rw [ofList]
  revert h
  generalize List.foldl _ _ _ = n
  obtain ⟨ns, hns⟩ := n
  intro h
  cases h
  rfl

end Keyed

end Interpose
