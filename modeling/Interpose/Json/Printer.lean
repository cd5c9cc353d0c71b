/-
Interpose.Json.Printer — JSON in lines, two blanks for each level, or all
on one line.

Empty arrays and objects stay on their line. Texts are written as they
are, but for quotes, backslashes and controls; nothing else is escaped.
-/
import Interpose.Json.Lexer

namespace Interpose.Json

/-! ## Texts -/

/-- A byte within a text. -/
def escapeByte (b : UInt8) : List UInt8 :=
  if b = ascii '"' then [ascii '\\', ascii '"']
  else if b = ascii '\\' then [ascii '\\', ascii '\\']
  else if b = 8 then [ascii '\\', ascii 'b']
  else if b = 9 then [ascii '\\', ascii 't']
  else if b = 10 then [ascii '\\', ascii 'n']
  else if b = 12 then [ascii '\\', ascii 'f']
  else if b = 13 then [ascii '\\', ascii 'r']
  else if b < 0x20 then
    ("\\u00".toList ++ Text.Hex.ofByte b).map ascii
  else [b]

/-- A text in quotes. -/
def quoteText (s : String) : List UInt8 :=
  ascii '"' :: s.toUTF8.toList.flatMap escapeByte ++ [ascii '"']

/-! ## Documents -/

def textBytes (s : String) : List UInt8 := s.toList.map ascii

/-- The start of a line at a level. -/
def newLine (level : Nat) : List UInt8 := 10 :: List.replicate (2 * level) 32

/-- Puts a comma before every part but the first. -/
def separator (first : Bool) : List UInt8 := if first then [] else [ascii ',']

mutual

/-- A value whose first line begins somewhere on a line of the given level.
A number that is not whole is never written, and shows as nought. -/
def renderAt (level : Nat) : Json → List UInt8
  | .null => textBytes "null"
  | .bool b => textBytes (if b then "true" else "false")
  | .int n => textBytes (toString n)
  | .real _ => textBytes "0.0"
  | .text s => quoteText (s.getD "")
  | .array [] => textBytes "[]"
  | .array (v :: vs) =>
    ascii '[' :: renderItems (level + 1) true (v :: vs) ++ newLine level ++ [ascii ']']
  | .object [] => textBytes "\x7b\x7d"
  | .object (m :: ms) =>
    ascii '{' :: renderMembers (level + 1) true (m :: ms) ++ newLine level ++ [ascii '}']

def renderItems (level : Nat) (first : Bool) : List Json → List UInt8
  | [] => []
  | v :: vs => separator first ++ newLine level ++ renderAt level v ++ renderItems level false vs

def renderMembers (level : Nat) (first : Bool) : List (Option String × Json) → List UInt8
  | [] => []
  | (k, v) :: ms =>
    separator first ++ newLine level ++ quoteText (k.getD "") ++ textBytes ": "
      ++ renderAt level v ++ renderMembers level false ms

end

/-- A document, without a line end. -/
def render (v : Json) : List UInt8 := renderAt 0 v

/-! ## On one line -/

mutual

/-- A value without a blank or a line end that is not in a text. -/
def compact : Json → List UInt8
  | .null => textBytes "null"
  | .bool b => textBytes (if b then "true" else "false")
  | .int n => textBytes (toString n)
  | .real _ => textBytes "0.0"
  | .text s => quoteText (s.getD "")
  | .array vs => ascii '[' :: compactItems true vs ++ [ascii ']']
  | .object ms => ascii '{' :: compactMembers true ms ++ [ascii '}']

def compactItems (first : Bool) : List Json → List UInt8
  | [] => []
  | v :: vs => separator first ++ compact v ++ compactItems false vs

def compactMembers (first : Bool) : List (Option String × Json) → List UInt8
  | [] => []
  | (k, v) :: ms =>
    separator first ++ quoteText (k.getD "") ++ [ascii ':'] ++ compact v ++ compactMembers false ms

end

end Interpose.Json
