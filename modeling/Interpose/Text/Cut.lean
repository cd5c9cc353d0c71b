/-
Interpose.Text.Cut — cutting a list at a separator.

`cutFirst?` cuts at the first occurrence, `cutLast?` at the last; both
drop the separator and answer `none` where there is none.
-/
namespace Interpose.Text

variable {α : Type} [DecidableEq α]

/-- The parts before and after the first `sep`. -/
def cutFirst? (sep : α) : List α → Option (List α × List α)
  | [] => none
  | x :: r =>
    if x = sep then some ([], r)
    else (cutFirst? sep r).map fun p => (x :: p.1, p.2)

/-- The parts before and after the last `sep`. -/
def cutLast? (sep : α) : List α → Option (List α × List α)
  | [] => none
  | x :: r =>
    match cutLast? sep r with
    | some p => some (x :: p.1, p.2)
    | none => if x = sep then some ([], r) else none

/-- What follows a leading `lead`, if the text begins with it. -/
def dropLead? : List α → List α → Option (List α)
  | [], cs => some cs
  | _ :: _, [] => none
  | l :: ls, c :: cs => if l = c then dropLead? ls cs else none

/-- What precedes a final `c`, if the text ends with it. -/
def dropFinal? (c : α) (cs : List α) : Option (List α) :=
  match cs.reverse with
  | [] => none
  | x :: r => if x = c then some r.reverse else none

end Interpose.Text
