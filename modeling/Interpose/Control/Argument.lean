/-
Interpose.Control.Argument — the values on a command line.
-/
import Interpose.Control.Target
import Interpose.Module

namespace Interpose.Control

/-- How a command line can be wrong, or ask for something other than a command. -/
inductive UsageFault where
  | unknownArgument
  | unknownCommand
  /-- An option stands without its value, or with an empty one it cannot take. -/
  | missingValue
  /-- A switch stands with a value. -/
  | unwantedValue
  /-- Two arguments that exclude each other, or one given twice. -/
  | conflict
  | missingArgument
  | missingCommand
  /-- A command that needs another one behind it, and nothing else at all. -/
  | nothingGiven
  | badValue (message : String)
  | help
  | version
  deriving DecidableEq, Repr

/-- Help and version are asked for; they are no mistakes. -/
def UsageFault.isMistake : UsageFault → Bool
  | help | version => false
  | _ => true

inductive Argument where
  | text (s : String)
  | number (n : Int)
  | target (t : Target)
  | entry (e : EntryPoint)
  deriving DecidableEq, Repr, Inhabited

/-- What an option or a place on the line takes. -/
inductive ValueKind where
  | text
  /-- The name of a file, which cannot be empty. -/
  | path
  /-- A number from `lo` to `hi`. -/
  | between (lo hi : Int)
  /-- A number of 64 bits without a sign. -/
  | word
  | target
  | entry
  deriving DecidableEq, Repr

/-- Reads an entry point: the symbol stands behind the last hash sign. -/
def readEntryPoint (s : String) : Option EntryPoint :=
  let cs := s.toList
  let (path, symbol) := (Text.cutLast? '#' cs).getD (cs, [])
  if path.isEmpty then none
  else some { codePath := String.ofList path, symbol := String.ofList symbol }

def ValueKind.read (k : ValueKind) (s : String) : Except UsageFault Argument :=
  match k with
  | text => .ok (.text s)
  | path => if s = "" then .error .missingValue else .ok (.text s)
  | between lo hi =>
    match Text.whole (UInt64.size / 2) s.toList with
    | .error e => .error (.badValue e.message)
    | .ok n =>
      if lo ≤ n ∧ n ≤ hi then .ok (.number n)
      else .error (.badValue
        (toString n ++ " is not in " ++ toString lo ++ "..=" ++ toString hi))
  | word =>
    match Text.natural UInt64.size s.toList with
    | .error e => .error (.badValue e.message)
    | .ok n => .ok (.number n)
  | target =>
    match Target.parse s with
    | .error e => .error (.badValue e.message)
    | .ok t => .ok (.target t)
  | entry =>
    match readEntryPoint s with
    | none => .error (.badValue ("'" ++ s ++ "' has no code path"))
    | some e => .ok (.entry e)

end Interpose.Control
