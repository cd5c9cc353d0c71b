/-
Interpose.Json.Value — JSON as it was written.

The tree keeps what a reader may still have to judge: the order of members
and their repetitions, texts that turn out to be none, and numbers that are
not whole. A document with such a part is refused only where the part is
used; where it is passed over it does no harm.
-/
namespace Interpose

inductive Json where
  | null
  | bool (b : Bool)
  /-- A whole number, written without fraction or exponent, that fits into 64
  bits with or without a sign. -/
  | int (n : Int)
  /-- Any other number; `finite` tells whether it fits into a double. -/
  | real (finite : Bool)
  /-- A text, or nothing where what was written is not one. -/
  | text (s : Option String)
  | array (items : List Json)
  | object (members : List (Option String × Json))
  deriving Inhabited

namespace Json

/-- A text that is known to be one. -/
def str (s : String) : Json := .text (some s)

/-- An object whose keys are known to be texts. -/
def record (members : List (String × Json)) : Json :=
  .object (members.map fun m => (some m.1, m.2))

/-! ## Nesting -/

mutual

/-- How many arrays and objects stand inside one another. -/
def nesting : Json → Nat
  | .array items => nestingOfItems items + 1
  | .object members => nestingOfMembers members + 1
  | _ => 0

def nestingOfItems : List Json → Nat
  | [] => 0
  | v :: vs => max (nesting v) (nestingOfItems vs)

def nestingOfMembers : List (Option String × Json) → Nat
  | [] => 0
  | (_, v) :: ms => max (nesting v) (nestingOfMembers ms)

end

end Json

end Interpose
