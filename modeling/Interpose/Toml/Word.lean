/-
Interpose.Toml.Word — values that are one word: numbers, truths, dates.

A word is a run of letters, digits, points, colons, underscores and signs.
What it stands for depends on the whole of it.
-/
import Interpose.Toml.Value
import Interpose.Text.Decimal
import Interpose.Text.Hex
import Interpose.Json.Lexer
import Interpose.Time.Calendar

namespace Interpose.Toml

def isWordChar (c : Char) : Bool :=
  c.isAlphanum || c = '.' || c = ':' || c = '_' || c = '+' || c = '-'

/-! ## Numbers -/

/-- Digits with single underscores between them, without the underscores. -/
def grouped? (isDigit : Char → Bool) : List Char → Option (List Char)
  | [] => none
  | c :: r =>
    if !isDigit c then none
    else match r with
      | [] => some [c]
      | '_' :: r => (grouped? isDigit r).map (c :: ·)
      | r => (grouped? isDigit r).map (c :: ·)

/-- Digits of a decimal number: no zero stands in front of another digit. -/
def decimalDigits? (cs : List Char) : Option (List Char) :=
  match cs with
  | '0' :: _ :: _ => none
  | _ => grouped? Char.isDigit cs

/-- A sign, plus where none is written, and what follows it. -/
def cutSign : List Char → Bool × List Char
  | '+' :: r => (false, r)
  | '-' :: r => (true, r)
  | cs => (false, cs)

/-- A number in a base other than ten. -/
def based? (base : Nat) (cs : List Char) : Option Int := do
  let isDigit (c : Char) : Bool := (Text.Hex.value? c).any (· < base)
  let ds ← grouped? isDigit cs
  let n := ds.foldl (fun n c => base * n + (Text.Hex.value? c).getD 0) 0
  if n < UInt64.size / 2 then some n else none

def whole? (cs : List Char) : Option Int :=
  match cs with
  | '0' :: 'x' :: r => based? 16 r
  | '0' :: 'o' :: r => based? 8 r
  | '0' :: 'b' :: r => based? 2 r
  | _ => do
    let (negative, r) := cutSign cs
    let n ← (decimalDigits? r).bind Text.nat?
    if negative then (if n ≤ UInt64.size / 2 then some (-n) else none)
    else if n < UInt64.size / 2 then some n else none

/-- A number with a fraction, an exponent or both. One too large for a double
is no number, unless it is negative. -/
def isReal (cs : List Char) : Bool :=
  let (negative, body) := cutSign cs
  if body = ['i', 'n', 'f'] || body = ['n', 'a', 'n'] then true
  else
    let mantissa := body.takeWhile fun c => c ≠ 'e' && c ≠ 'E'
    let exponent := body.drop mantissa.length
    let front := mantissa.takeWhile (· ≠ '.')
    let back := mantissa.drop front.length
    let frac? := if back.isEmpty then some [] else grouped? Char.isDigit (back.drop 1)
    let exp? : Option Int :=
      if exponent.isEmpty then some 0
      else
        let (down, ds) := cutSign (exponent.drop 1)
        ((grouped? Char.isDigit ds).bind Text.nat?).map fun n => if down then -(n : Int) else n
    match decimalDigits? front, frac?, exp? with
    | some ds, some fs, some e =>
      if back.isEmpty && exponent.isEmpty then false
      else negative || Json.isFinite ((Text.nat? (ds ++ fs)).getD 0) (e - fs.length)
    | _, _, _ => false

/-! ## Dates and times -/

/-- The number of a fixed count of digits at the front. -/
def digitsAhead? (count : Nat) (cs : List Char) : Option (Nat × List Char) :=
  let ds := cs.take count
  if ds.length = count then (Text.nat? ds).map fun n => (n, cs.drop count) else none

/-- A number of two digits within bounds. -/
def pair? (lo hi : Nat) (cs : List Char) : Option (Nat × List Char) :=
  (digitsAhead? 2 cs).filter fun p => lo ≤ p.1 && p.1 ≤ hi

def lead? (c : Char) : List Char → Option (List Char)
  | d :: r => if d = c then some r else none
  | [] => none

/-- A date of the calendar at the front. -/
def date? (cs : List Char) : Option (List Char) := do
  let (y, cs) ← digitsAhead? 4 cs
  let cs ← lead? '-' cs
  let (m, cs) ← pair? 1 12 cs
  let cs ← lead? '-' cs
  let (d, cs) ← pair? 1 31 cs
  if d ≤ Time.daysInMonth y m then some cs else none

/-- A time of day at the front; the sixtieth second is one. -/
def time? (cs : List Char) : Option (List Char) := do
  let (_, cs) ← pair? 0 23 cs
  let cs ← lead? ':' cs
  let (_, cs) ← pair? 0 59 cs
  let cs ← lead? ':' cs
  let (_, cs) ← pair? 0 60 cs
  match cs with
  | '.' :: r =>
    let ds := r.takeWhile Char.isDigit
    if ds.isEmpty then none else some (r.drop ds.length)
  | cs => some cs

/-- Whether this is nothing, or a difference from universal time. -/
def isOffset (cs : List Char) : Bool :=
  match cs with
  | [] => true
  | c :: r =>
    if c = 'Z' || c = 'z' then r.isEmpty
    else if c = '+' || c = '-' then
      (do let (_, r) ← pair? 0 23 r
          let r ← lead? ':' r
          let (_, r) ← pair? 0 59 r
          some r.isEmpty).getD false
    else false

/-- A time of day, maybe with a difference from universal time. -/
def isTime (cs : List Char) : Bool := ((time? cs).map isOffset).getD false

/-- A date alone. -/
def isDate (cs : List Char) : Bool := ((date? cs).map (·.isEmpty)).getD false

def isMoment (cs : List Char) : Bool :=
  (time? cs).any (·.isEmpty) ||
  match date? cs with
  | some [] => true
  | some (c :: r) => (c = 'T' || c = 't') && isTime r
  | none => false

/-! ## Words -/

/-- What a word stands for. -/
def ofWord? (cs : List Char) : Option Toml :=
  if cs = "true".toList then some (.truth true)
  else if cs = "false".toList then some (.truth false)
  else match whole? cs with
    | some n => some (.whole n)
    | none => if isReal cs then some .real else if isMoment cs then some .moment else none

/-- Reads the word at the front. A date may have its time behind one space. -/
def word? (cs : List Char) : Option (Toml × List Char) :=
  let w := cs.takeWhile isWordChar
  let rest := cs.drop w.length
  match rest with
  | ' ' :: more =>
    let t := more.takeWhile isWordChar
    if isDate w && isTime t then some (.moment, more.drop t.length)
    else (ofWord? w).map fun v => (v, rest)
  | _ => (ofWord? w).map fun v => (v, rest)

end Interpose.Toml
