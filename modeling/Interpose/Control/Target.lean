/-
Interpose.Control.Target — scope targets on the command line.

A target is `*` for every application, or an application id, after which a
slash may name one user or, with a star, all of them. The label printed
for a target always has its user part, and reads back as the same target.
-/
import Interpose.Scope
import Interpose.Text.Blank
import Interpose.Text.Cut
import Interpose.Text.Decimal

namespace Interpose.Control

inductive Target where
  /-- Every application. -/
  | all
  | app (target : ScopeTarget)
  deriving DecidableEq, Repr, Inhabited

inductive TargetFault where
  /-- The id is empty or has a blank; the whole text is kept, trimmed. -/
  | badApp (text : String)
  | badUser (user : String)
  deriving DecidableEq, Repr

def TargetFault.message : TargetFault → String
  | badApp s => "'" ++ s ++ "' is not a valid application id"
  | badUser u => "'" ++ u ++ "' is not a valid user id"

namespace Target

/-- The user part after the slash: a star leaves the user open. -/
def readUser (u : List Char) : Except TargetFault (Option UInt32) :=
  if u = ['*'] then .ok none
  else match Text.unsigned? UInt32.size u with
    | some n => .ok (some (UInt32.ofNat n))
    | none => .error (.badUser (String.ofList u))

/-- Reads a target; blanks around it are dropped. -/
def read (text : List Char) : Except TargetFault Target :=
  let cs := Text.trim text
  if cs = ['*'] then .ok all
  else
    let (name, user) := match Text.cutFirst? '/' cs with
      | some (a, u) => (a, some u)
      | none => (cs, none)
    if name.isEmpty || name.any Text.isBlank then .error (.badApp (String.ofList cs))
    else
      (user.elim (.ok none) readUser).map fun userId =>
        app { appId := String.ofList name, userId }

def parse (s : String) : Except TargetFault Target := read s.toList

/-- The label of a target in a listing. -/
def label (t : ScopeTarget) : String :=
  t.appId ++ "/" ++ t.userId.elim "*" fun u => toString u.toNat

/-- The scope a list of targets stands for: one star makes it everything. -/
def scopeOf (ts : List Target) : WireScope :=
  if ts.contains all then WireScope.all
  else { targets := ts.filterMap fun | app t => some t | all => none }

end Target

end Interpose.Control
