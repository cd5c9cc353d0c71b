/-
Interpose.Json.Cursor — a place in a text, and what is wrong there.

Lines count from one, columns from nought: the column is how many bytes of
the line have been read. Some complaints know their place at once; those
about a whole array or object get theirs where reading it stopped.
-/
import Interpose.Json.Lexer
import Interpose.Text.Quoted

namespace Interpose.Json

/-! ## Places -/

structure Cursor where
  rest : List UInt8
  line : Nat := 1
  column : Nat := 0
  deriving Inhabited

namespace Cursor

/-- One byte further, unless the text is over. -/
def advance (c : Cursor) : Cursor :=
  match c.rest with
  | [] => c
  | b :: r => if b = 10 then { rest := r, line := c.line + 1 } else { c with rest := r, column := c.column + 1 }

/-- A number of bytes further. -/
def forward : Nat → Cursor → Cursor
  | 0, c => c
  | n + 1, c => forward n c.advance

/-- Behind everything but a given rest. -/
def upTo (c : Cursor) (rest : List UInt8) : Cursor := c.forward (c.rest.length - rest.length)

/-- Behind the blanks that come next. -/
def pastSpaces (c : Cursor) : Cursor := c.upTo (c.rest.dropWhile isSpace)

/-- Whether a character comes next. -/
def sees (c : Cursor) (x : Char) : Bool := c.rest.head? == some (ascii x)

end Cursor

/-! ## Complaints -/

structure Complaint where
  what : String
  place : Cursor
  /-- Whether the place is final. -/
  settled : Bool
  deriving Inhabited

namespace Complaint

def text (e : Complaint) : String :=
  e.what ++ " at line " ++ toString e.place.line ++ " column " ++ toString e.place.column

/-- About what has just been read. -/
def behind (c : Cursor) (what : String) : Complaint := { what, place := c, settled := true }

/-- About the byte that comes next. -/
def ahead (c : Cursor) (what : String) : Complaint := { what, place := c.advance, settled := true }

/-- About an array or object as a whole, met at some point inside it. -/
def within (c : Cursor) (what : String) : Complaint := { what, place := c, settled := false }

/-- Gives a complaint its place at the end of an array or object, if the end
comes next. -/
def settle (close : Char) (e : Complaint) : Complaint :=
  if e.settled then e
  else
    let c := e.place.pastSpaces
    { e with settled := true, place := if c.sees close then c.advance else c }

end Complaint

/-! ## What is wrong with a token -/

/-- What is wrong with a text, looked at from behind its opening quote. -/
def textComplaint (c : Cursor) : List UInt8 → Complaint
  | [] => .behind c "EOF while parsing a string"
  | b :: r =>
    if b = ascii '"' then .behind c.advance "invalid unicode code point"
    else if b < 0x20 then
      .behind c.advance "control character (\\u0000-\\u001F) found while parsing a string"
    else if b = ascii '\\' then
      match r with
      | [] => .behind c.advance "EOF while parsing a string"
      | e :: r =>
        let c := c.forward 2
        if e = ascii 'u' then
          match r with
          | h1 :: h2 :: h3 :: h4 :: r =>
            if [h1, h2, h3, h4].all fun h => (hexDigit? h).isSome then textComplaint (c.forward 4) r
            else .behind (c.forward 4) "invalid escape"
          | _ => .behind (c.forward r.length) "EOF while parsing a string"
        else if (escaped? e).isSome then textComplaint c r
        else .behind c "invalid escape"
    else textComplaint c.advance r

/-- Where a number goes wrong that nothing can be made of, looked at from
behind its sign. -/
def numberComplaint (c : Cursor) : Complaint :=
  /- A digit is missing; what stands in its place has been read. -/
  let missing (c : Cursor) : Complaint :=
    if c.rest.isEmpty then .behind c "EOF while parsing a value" else .behind c.advance "invalid number"
  match lexDigits c.rest with
  | none => missing c
  | some (ds, r) =>
    if ds.head? = some (ascii '0') ∧ 1 < ds.length then .behind (c.forward 2) "invalid number"
    else match lexFraction r with
      | none => missing (c.upTo (r.drop 1))
      | some (_, r) => missing (c.upTo (lexSign (r.drop 1)).2)

/-- Where a word goes wrong that should be one of the three, looked at from
behind its first letter. -/
def wordComplaint (c : Cursor) : List UInt8 → Complaint
  | [] => .behind c "expected ident"
  | w :: ws =>
    if c.rest.isEmpty then .behind c "EOF while parsing a value"
    else if c.rest.head? = some w then wordComplaint c.advance ws
    else .behind c.advance "expected ident"

end Interpose.Json
