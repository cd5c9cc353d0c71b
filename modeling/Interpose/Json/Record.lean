/-
Interpose.Json.Record — records in JSON.

A record is an object with known keys, or an array of its fields in order.
Keys nobody knows are passed over with whatever they hold; a known key may
come once only. A field may have a value for when it is missing; fields
missing at the end of an array are missing like any others, and an array
with more items than fields is no record.
-/
import Interpose.Json.Value

namespace Interpose.Json

/-! ## Plain values -/

def text? : Json → Option String
  | .text s => s
  | _ => none

def bool? : Json → Option Bool
  | .bool b => some b
  | _ => none

/-- A whole number from `lo` to `hi`, both included. -/
def int? (lo hi : Int) : Json → Option Int
  | .int n => if lo ≤ n ∧ n ≤ hi then some n else none
  | _ => none

def uint32? (j : Json) : Option UInt32 := (j.int? 0 (UInt32.size - 1)).map fun n => UInt32.ofNat n.toNat
def uint64? (j : Json) : Option UInt64 := (j.int? 0 (UInt64.size - 1)).map fun n => UInt64.ofNat n.toNat
def int32? (j : Json) : Option Int32 := (j.int? Int32.minValue.toInt Int32.maxValue.toInt).map Int32.ofInt

def list? {α : Type} (f : Json → Option α) : Json → Option (List α)
  | .array items => items.mapM f
  | _ => none

/-- A value that may be null. -/
def nullable? {α : Type} (f : Json → Option α) : Json → Option (Option α)
  | .null => some none
  | j => (f j).map some

/-! ## Records -/

/-- The value of a key that may come once: nothing where it is missing. -/
def once? (members : List (Option String × Json)) (name : String) : Option (Option Json) :=
  match members.filter (·.1 == some name) with
  | [] => some none
  | [m] => some (some m.2)
  | _ => none

/-- The fields of a record by their names, in the order of the names. -/
def fields? (names : List String) : Json → Option (List (Option Json))
  | .object members =>
    if members.all (·.1.isSome) then names.mapM (once? members) else none
  | .array items =>
    if items.length ≤ names.length then
      some (items.map some ++ List.replicate (names.length - items.length) none)
    else none
  | _ => none

/-- A field that must be there. -/
def needed {α : Type} (f : Json → Option α) (field : Option Json) : Option α := field.bind f

/-- A field with a value for when it is missing. -/
def withDefault {α : Type} (d : α) (f : Json → Option α) (field : Option Json) : Option α :=
  field.elim (some d) f

/-! ## Nesting -/

/-- How many arrays and objects may stand inside one another where each of
them is used or kept. -/
def depthLimit : Nat := 127

mutual

/-- Whether a value can be kept until it is known what it is for: its texts
are texts, its numbers fit, and it nests no deeper than `depth`. -/
def keepable (depth : Nat) : Json → Bool
  | .null | .bool _ | .int _ => true
  | .real finite => finite
  | .text s => s.isSome
  | .array items => 0 < depth && keepableItems (depth - 1) items
  | .object members => 0 < depth && keepableMembers (depth - 1) members

def keepableItems (depth : Nat) : List Json → Bool
  | [] => true
  | v :: vs => keepable depth v && keepableItems depth vs

def keepableMembers (depth : Nat) : List (Option String × Json) → Bool
  | [] => true
  | (k, v) :: ms => k.isSome && keepable depth v && keepableMembers depth ms

end

end Interpose.Json
