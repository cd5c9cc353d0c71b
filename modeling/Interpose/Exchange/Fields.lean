/-
Interpose.Exchange.Fields — the fields of JSON objects, read leniently.

Tools drive this library with values in JSON. A field that is missing,
null or of another kind than was asked for reads as the least value of its
kind, so that a tool need only say what matters to it.
-/
import Interpose.Json.Record

namespace Interpose.Exchange

/-! ## Reading -/

/-- The value of a field; null where there is none. -/
def field (j : Json) (k : String) : Json :=
  match j with
  | .object members => (members.lookup (some k)).getD .null
  | _ => .null

/-- Whether a field is there and not null. -/
def given (j : Json) (k : String) : Bool :=
  match field j k with
  | .null => false
  | _ => true

def int? (j : Json) (k : String) : Option Int :=
  match field j k with
  | .int n => some n
  | _ => none

def itemsOf : Json → List Json
  | .array items => items
  | _ => []

/-- The members of an object. -/
def membersOf : Json → List (String × Json)
  | .object members => members.filterMap fun m => m.1.map (·, m.2)
  | _ => []

def text? (j : Json) (k : String) : Option String := (field j k).text?
def text (j : Json) (k : String) : String := (text? j k).getD ""
def int (j : Json) (k : String) : Int := (int? j k).getD 0
def nat (j : Json) (k : String) : Nat := (int j k).toNat
def flag (j : Json) (k : String) : Bool := (field j k).bool?.getD false
def items (j : Json) (k : String) : List Json := itemsOf (field j k)
def texts (j : Json) (k : String) : List String := (items j k).filterMap Json.text?
def word32 (j : Json) (k : String) : UInt32 := UInt32.ofNat (nat j k)
def word64 (j : Json) (k : String) : UInt64 := UInt64.ofNat (nat j k)
def signed32 (j : Json) (k : String) : Int32 := Int32.ofInt (int j k)
def signed64 (j : Json) (k : String) : Int64 := Int64.ofInt (int j k)

/-- The value of a field that may be left out. -/
def optional {α : Type} (f : Json → α) (j : Json) (k : String) : Option α :=
  if given j k then some (f (field j k)) else none

/-! ## Writing -/

def textArray (xs : List String) : Json := .array (xs.map .str)

/-- Nothing is written as null. -/
def orNull {α : Type} (f : α → Json) : Option α → Json
  | some a => f a
  | none => .null

/-- A failure known by its name. -/
def fault (name : String) : Json := .record [("error", .str name)]

/-- A failure with its message. -/
def faultWith (name message : String) : Json :=
  .record [("error", .str name), ("message", .str message)]

end Interpose.Exchange
