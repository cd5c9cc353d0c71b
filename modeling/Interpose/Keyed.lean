/-
Interpose.Keyed — values under text keys, in the order of the keys.

Keys are compared by code points, which is the order of their UTF-8 bytes.
The order is part of the type: two maps with the same values under the same
keys are equal, and a map is written down in one way only.
-/
namespace Interpose

/-! ## Entries in rising order -/

namespace Keyed

variable {α : Type}

/-- Puts a value under a key, in place of the one that was there. -/
def insertEntry (k : String) (x : α) : List (String × α) → List (String × α)
  | [] => [(k, x)]
  | e :: es =>
    if k < e.1 then (k, x) :: e :: es
    else if k = e.1 then (k, x) :: es
    else e :: insertEntry k x es

theorem mem_insertEntry {k : String} {x : α} {e : String × α} {es : List (String × α)}
    (h : e ∈ insertEntry k x es) : e = (k, x) ∨ e ∈ es := by
  induction es with
  | nil => simpa [insertEntry] using h
  | cons d ds ih =>
    rw [insertEntry] at h
    split at h
    · simpa using h
    · split at h
      · rcases List.mem_cons.1 h with h | h
        · exact Or.inl h
        · exact Or.inr (List.mem_cons_of_mem _ h)
      · rcases List.mem_cons.1 h with h | h
        · exact Or.inr (h ▸ List.mem_cons_self)
        · exact (ih h).imp id (List.mem_cons_of_mem _)

theorem rising_insertEntry {k : String} {x : α} {es : List (String × α)}
    (h : es.Pairwise fun a b => a.1 < b.1) :
    (insertEntry k x es).Pairwise fun a b => a.1 < b.1 := by
  induction es with
  | nil => simp [insertEntry]
  | cons d ds ih =>
    obtain ⟨hd, hds⟩ := List.pairwise_cons.1 h
    rw [insertEntry]
    split
    · rename_i hk
      refine List.pairwise_cons.2 ⟨fun e he => ?_, h⟩
      rcases List.mem_cons.1 he with rfl | he
      · exact hk
      · exact String.lt_trans hk (hd e he)
    · split
      · rename_i _ hk
        exact List.pairwise_cons.2 ⟨fun e he => hk ▸ hd e he, hds⟩
      · rename_i hlt hne
        refine List.pairwise_cons.2 ⟨fun e he => ?_, ih hds⟩
        rcases mem_insertEntry he with rfl | he
        · exact Std.lt_of_le_of_ne (Std.not_lt.1 hlt) (Ne.symm hne)
        · exact hd e he

end Keyed

/-! ## Maps -/

structure Keyed (α : Type) where
  entries : List (String × α) := []
  rising : entries.Pairwise (fun a b => a.1 < b.1) := by exact List.Pairwise.nil
  deriving DecidableEq

namespace Keyed

variable {α : Type}

def empty : Keyed α := {}

instance : Inhabited (Keyed α) := ⟨empty⟩

/-- The values in the order of their keys. -/
def values (m : Keyed α) : List α := m.entries.map (·.2)

def size (m : Keyed α) : Nat := m.entries.length

def get? (m : Keyed α) (k : String) : Option α :=
  (m.entries.find? (·.1 == k)).map (·.2)

def insert (m : Keyed α) (k : String) (x : α) : Keyed α where
  entries := insertEntry k x m.entries
  rising := rising_insertEntry m.rising

def erase (m : Keyed α) (k : String) : Keyed α where
  entries := m.entries.filter (·.1 != k)
  rising := m.rising.filter _

/-- A map from pairs in any order; of equal keys the last one counts. -/
def ofList (pairs : List (String × α)) : Keyed α :=
  pairs.foldl (fun m p => m.insert p.1 p.2) empty

end Keyed

end Interpose
