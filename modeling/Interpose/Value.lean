/-
Interpose.Value — what crosses a method call.
-/
import Interpose.Method.Info
import Interpose.Text.Hex

namespace Interpose

/-- A value of the runtime. A floating-point number is kept as its bits, so
that two of them are equal exactly when they are the same word. -/
inductive Value where
  | void
  | null
  | bool (b : Bool)
  | int (n : Int64)
  | float (bits : UInt64)
  | str (s : String)
  | object (className : String) (id : UInt64)
  deriving DecidableEq, Repr, Inhabited

/-- An exception, thrown by a method or by a hook in its place. -/
structure Throwable where
  className : String
  message : String
  deriving DecidableEq, Repr, Inhabited

def Throwable.text (t : Throwable) : String := t.className ++ ": " ++ t.message

/-- What a call comes to: a value, or an exception. -/
abbrev Outcome := Except Throwable Value

instance : BEq Outcome where
  beq
    | .ok a, .ok b => a == b
    | .error a, .error b => a == b
    | _, _ => false

/-- What a call is given: a receiver, unless the method is static, and the
arguments. -/
structure Call where
  this : Option Value := none
  args : List Value := []
  deriving DecidableEq, Repr, Inhabited

/-! ## Values as text -/

namespace Value

/-- The text of a value in a trace. -/
def text : Value → String
  | void => "void"
  | null => "null"
  | bool b => if b then "true" else "false"
  | int n => toString n.toInt
  | float bits => "f:" ++ Text.Hex.word bits
  | str s => s
  | object c id => c ++ "@" ++ toString id.toNat

def textAll (vs : List Value) : String := ",".intercalate (vs.map text)

end Value

end Interpose
