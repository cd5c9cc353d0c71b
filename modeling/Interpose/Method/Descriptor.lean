/-
Interpose.Method.Descriptor — naming a method by text.

`class#name` names every overload, `class#name(p1,p2)` exactly one
parameter list; `class#name()` is the empty list, which is not the same as
none. Blanks may stand around the whole, inside empty parentheses and
around each parameter, and nowhere else.
-/
import Interpose.Text.Blank
import Interpose.Text.Cut

namespace Interpose

structure MethodDescriptor where
  className : String
  name : String
  params : Option (List String) := none
  deriving DecidableEq, Repr, Inhabited

/-! ## Printing -/

/-- The text of a parameter list. -/
def paramText (params : List String) : String := "(" ++ ",".intercalate params ++ ")"

/-- The text of a descriptor, without blanks. -/
def MethodDescriptor.text (d : MethodDescriptor) : String :=
  d.className ++ "#" ++ d.name ++ d.params.elim "" paramText

/-! ## Reading -/

/-- Why a text is no descriptor. -/
inductive DescriptorFault where
  | noSeparator
  | unterminated
  | badParam
  | badClass
  | badName
  deriving DecidableEq, Repr

def DescriptorFault.reason : DescriptorFault → String
  | noSeparator => "expected class#method"
  | unterminated => "unterminated parameter list"
  | badParam => "empty or invalid parameter type"
  | badClass => "invalid class name"
  | badName => "invalid method name"

/-- An identifier has at least one character, and none that is blank or one
of the four separators. -/
def isIdent (cs : List Char) : Bool :=
  !cs.isEmpty && cs.all fun c => !Text.isBlank c && !(['#', '(', ')', ','].contains c)

namespace MethodDescriptor

/-- The parameters between the parentheses: none for blanks alone, else one
for each comma and one more. -/
def readParams (inner : List Char) : Except DescriptorFault (List (List Char)) :=
  if Text.allBlank inner then .ok []
  else
    let params := (inner.splitOn ',').map Text.trim
    if params.all isIdent then .ok params else .error .badParam

/-- A method name with its parameter list, if it has one. The list runs from
the first parenthesis to the end. -/
def readTail (rest : List Char) : Except DescriptorFault (List Char × Option (List (List Char))) :=
  match Text.cutFirst? '(' rest with
  | none => .ok (rest, none)
  | some (name, tail) =>
    match Text.dropFinal? ')' tail with
    | none => .error .unterminated
    | some inner => (readParams inner).map fun ps => (name, some ps)

/-- Reads a descriptor. Of several faults the parameter list's is told
first, then the class's, then the name's. -/
def read (cs : List Char) : Except DescriptorFault MethodDescriptor :=
  match Text.cutFirst? '#' (Text.trim cs) with
  | none => .error .noSeparator
  | some (cls, rest) =>
    match readTail rest with
    | .error e => .error e
    | .ok (name, params) =>
      if !isIdent cls then .error .badClass
      else if !isIdent name then .error .badName
      else .ok {
        className := String.ofList cls
        name := String.ofList name
        params := params.map (·.map String.ofList) }

end MethodDescriptor

end Interpose
