/-
Interpose.Toml.Record — values of a known kind, and records of them.
-/
import Interpose.Toml.Value

namespace Interpose.Toml

/-! ## Plain values -/

def text? : Toml → Option String
  | .text s => some s
  | _ => none

def truth? : Toml → Option Bool
  | .truth b => some b
  | _ => none

/-- A whole number that is not negative. -/
def natural? : Toml → Option Nat
  | .whole n => if 0 ≤ n then some n.toNat else none
  | _ => none

/-! ## Records -/

/-- The fields of a record by their names. An array gives them in order,
what it has beyond them does not count; a moment has none of them. -/
def fields? (names : List String) : Toml → Option (List (Option Toml))
  | .table _ ms => some (names.map fun k => ms.lookup k)
  | .array items | .tables items =>
    some ((items.map some ++ List.replicate names.length none).take names.length)
  | .moment => some (names.map fun _ => none)
  | _ => none

/-- A field that must be there. -/
def needed {α : Type} (f : Toml → Option α) (field : Option Toml) : Option α := field.bind f

/-- A field with a value for when it is missing. -/
def withDefault {α : Type} (d : α) (f : Toml → Option α) (field : Option Toml) : Option α :=
  field.elim (some d) f

end Interpose.Toml
