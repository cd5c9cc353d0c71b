/-
Interpose.Json.Complaint — what is wrong with a document, and where.

A document is read once from front to back against the shape it should
have, and the first thing that is wrong is told: a mark that is missing, a
value of another kind, a number out of range, a field that is missing or
comes twice. Reading a record that is right is the business of
`Interpose.Json.Record`; this module only words the refusal.
-/
import Interpose.Json.Cursor

namespace Interpose.Json

/-! ## Shapes -/

inductive Shape where
  | anything
  /-- A whole number within bounds, and what such a number is called. -/
  | whole (name : String) (lo hi : Int)
  | truth
  | text
  /-- One of a few names. -/
  | choice (names : List String)
  | optional (of : Shape)
  | list (of : Shape)
  /-- An object with any keys. -/
  | table (of : Shape)
  /-- An object with known keys: each with its name and whether it must be there. -/
  | record (title : String) (fields : List (String × Bool × Shape))
  deriving Inhabited

namespace Shape

def natural64 : Shape := whole "u64" 0 (UInt64.size - 1)
def natural32 : Shape := whole "u32" 0 (UInt32.size - 1)
def integer32 : Shape := whole "i32" Int32.minValue.toInt Int32.maxValue.toInt

/-- What is said to have been expected. -/
def expected : Shape → String
  | anything => "any value"
  | whole name _ _ => name
  | truth => "a boolean"
  | text => "a string"
  | choice _ => "variant identifier"
  | optional of => of.expected
  | list _ => "a sequence"
  | table _ => "a map"
  | record title _ => title

end Shape

/-- A number by its digits and where its point is: with a point as long as
that takes few noughts, otherwise with an exponent. -/
def realText (digits : List Char) (point : Int) : String :=
  let count := digits.length
  if digits.isEmpty then "0.0"
  else if count ≤ point ∧ point ≤ 16 then
    String.ofList (digits ++ List.replicate (point.toNat - count) '0') ++ ".0"
  else if 0 < point ∧ point ≤ 16 then
    String.ofList (digits.take point.toNat ++ ['.'] ++ digits.drop point.toNat)
  else if -5 < point ∧ point ≤ 0 then
    String.ofList (['0', '.'] ++ List.replicate (-point).toNat '0' ++ digits)
  else
    String.ofList (digits.take 1 ++ (if count = 1 then [] else '.' :: digits.drop 1))
      ++ "e" ++ toString (point - 1)

/-- A number that is not whole, from how it was written. -/
def spelledReal (spelling : List UInt8) : String :=
  let (negative, bs) := lexSign spelling
  let ds := bs.takeWhile isDigit
  let (fs, r) := ((lexFraction (bs.dropWhile isDigit)).getD (none, []))
  let exponent := (((lexExponent r).bind (·.1)).getD 0)
  let all := (ds ++ fs.getD []).map fun d => Char.ofNat d.toNat
  let led := all.dropWhile (· == '0')
  let digits := (led.reverse.dropWhile (· == '0')).reverse
  (if negative then "-" else "")
    ++ realText digits (ds.length + exponent - (all.length - led.length : Nat))

/-- What a value is said to be. -/
def account (spelling : List UInt8) : Json → String
  | .null => "null"
  | .bool b => "boolean `" ++ toString b ++ "`"
  | .int n => "integer `" ++ toString n ++ "`"
  | .real _ => "floating point `" ++ spelledReal spelling ++ "`"
  | .text s => "string " ++ Text.quoted (s.getD "")
  | .array _ => "sequence"
  | .object _ => "map"

/-! ## Reading -/

/-- Reads on from a place, or complains. -/
abbrev Reader (α : Type) := StateT Cursor (Except Complaint) α

namespace Reader

def complain {α : Type} (f : Cursor → Complaint) : Reader α := do throw (f (← get))

/-- Passes over blanks; answers the byte that comes next. -/
def peek : Reader (Option UInt8) := do
  modify Cursor.pastSpaces
  return (← get).rest.head?

def eat : Reader Unit := modify Cursor.advance

/-- A value has to come next. -/
def start : Reader UInt8 := do
  match ← peek with
  | some b => return b
  | none => complain (.ahead · "EOF while parsing a value")

/-- The rest of a text, from behind its opening quote. -/
def textRest : Reader String := do
  let c ← get
  match lexText {} c.rest with
  | some (some s, r) => set (c.upTo r); return s
  | _ => throw (textComplaint c c.rest)

/-- The rest of a word, from behind its first letter. -/
def word (w : String) : Reader Unit := do
  let c ← get
  match dropWord? (w.toList.map ascii) c.rest with
  | some r => set (c.upTo r)
  | none => throw (wordComplaint c (w.toList.map ascii))

/-- A number. -/
def number : Reader Json := do
  let negative := (← get).sees '-'
  if negative then eat
  let c ← get
  match lexUnsigned negative c.rest with
  | none => throw (numberComplaint c)
  | some (.real false, r) => throw (.behind (c.upTo r) "number out of range")
  | some (j, r) => set (c.upTo r); return j

def startsNumber (b : UInt8) : Bool := isDigit b || b == ascii '-'

/-- A value that is not an array or object. -/
def scalar (b : UInt8) : Reader Json := do
  if startsNumber b then number
  else if b = ascii '"' then eat; return .str (← textRest)
  else if b = ascii 'n' then eat; word "ull"; return .null
  else if b = ascii 't' then eat; word "rue"; return .bool true
  else if b = ascii 'f' then eat; word "alse"; return .bool false
  else complain (.ahead · "expected value")

/-- What was read behind an earlier place. -/
def since (c : Cursor) : Reader (List UInt8) := do
  return c.rest.take (c.rest.length - (← get).rest.length)

/-- Complains that a value is of another kind. -/
def misfit {α : Type} (s : Shape) (b : UInt8) : Reader α := do
  let c ← get
  let found ← if b = ascii '[' then pure (.array [])
    else if b = ascii '\x7b' then pure (.object [])
    else scalar b
  let spelling ← since c
  complain (.behind · ("invalid type: " ++ account spelling found ++ ", expected " ++ s.expected))

/-- A whole number within bounds. -/
def whole (name : String) (lo hi : Int) (b : UInt8) : Reader Unit := do
  if !startsNumber b then misfit (.whole name lo hi) b
  let c ← get
  let j ← number
  let spelling ← since c
  let wrong (what : String) : Reader Unit :=
    complain (.behind · ("invalid " ++ what ++ ": " ++ account spelling j ++ ", expected " ++ name))
  match j with
  | .int n => if n < lo ∨ hi < n then wrong "value"
  | _ => wrong "type"

/-- One of a few names. -/
def choice (names : List String) (b : UInt8) : Reader Unit := do
  if b ≠ ascii '"' then complain (.ahead · "expected value")
  eat
  let s ← textRest
  if !names.contains s then
    complain (.behind · ("unknown variant `" ++ s ++ "`, expected "
      ++ " or ".intercalate (names.map fun n => "`" ++ n ++ "`")))

/-- Settles the complaints of what stands inside an array or object. -/
def inside {α : Type} (close : Char) (r : Reader α) : Reader α := fun c =>
  (r.run c).mapError (Complaint.settle close)

/-- The key of the next member, or nothing at the end of the object. -/
def key (first : Bool) : Reader (Option String) := do
  let gap := "EOF while parsing an object"
  match ← peek with
  | none => complain (.ahead · gap)
  | some b =>
    if b = ascii '\x7d' then eat; return none
    if !first then
      if b ≠ ascii ',' then complain (.ahead · "expected `,` or `\x7d`")
      eat
    match ← peek with
    | none => complain (.ahead · "EOF while parsing a value")
    | some b =>
      if b = ascii '"' then eat; return some (← textRest)
      else if b = ascii '\x7d' then complain (.ahead · "trailing comma")
      else complain (.ahead · "key must be a string")

/-- The mark between a key and its value. -/
def colon : Reader Unit := do
  match ← peek with
  | none => complain (.ahead · "EOF while parsing an object")
  | some b => if b = ascii ':' then eat else complain (.ahead · "expected `:`")

/-- Whether another item comes, or the array ends here. -/
def anotherItem (first : Bool) : Reader Bool := do
  match ← peek with
  | none => complain (.ahead · "EOF while parsing a list")
  | some b =>
    if b = ascii ']' then eat; return false
    if first then return true
    if b ≠ ascii ',' then complain (.ahead · "expected `,` or `]`")
    eat
    match ← peek with
    | none => complain (.ahead · "EOF while parsing a value")
    | some b => if b = ascii ']' then complain (.ahead · "trailing comma") else return true

/-- A record that is written as an array must end where its fields do. -/
def lastItem : Reader Unit := do
  match ← peek with
  | none => complain (.ahead · "EOF while parsing a list")
  | some b => if b = ascii ']' then eat else complain (.ahead · "trailing characters")

end Reader

/-! ## Against a shape -/

/-- The first field that has to be there and is not. -/
def absent? (fields : List (String × Bool × Shape)) (seen : List String) : Option String :=
  (fields.find? fun f => f.2.1 && !seen.contains f.1).map (·.1)

open Reader in
mutual

/-- Reads a value; the first number bounds how often this can go on. -/
def readShape : Nat → Shape → Reader Unit
  | 0, _ => pure ()
  | n + 1, s => do
    let b ← start
    match s with
    | .whole name lo hi => whole name lo hi b
    | .choice names => choice names b
    | .optional of => if b = ascii 'n' then discard (scalar b) else readShape n of
    | .truth => if b = ascii 't' ∨ b = ascii 'f' then discard (scalar b) else misfit s b
    | .text => if b = ascii '"' then discard (scalar b) else misfit s b
    | .list of => if b = ascii '[' then inside ']' (do eat; readItems n of true) else misfit s b
    | .table of => if b = ascii '\x7b' then inside '\x7d' (do eat; readTable n of true) else misfit s b
    | .record title fields =>
      if b = ascii '\x7b' then inside '\x7d' (do eat; readRecord n fields [])
      else if b = ascii '[' then inside ']' (do eat; readFields n title fields.length 0 fields)
      else misfit s b
    | .anything =>
      if b = ascii '\x7b' then inside '\x7d' (do eat; readTable n .anything true)
      else if b = ascii '[' then inside ']' (do eat; readItems n .anything true)
      else discard (scalar b)

/-- Reads the items of a list. -/
def readItems : Nat → Shape → Bool → Reader Unit
  | 0, _, _ => pure ()
  | n + 1, of, first => do
    if ← anotherItem first then
      readShape n of
      readItems n of false

/-- Reads the members of a table. -/
def readTable : Nat → Shape → Bool → Reader Unit
  | 0, _, _ => pure ()
  | n + 1, of, first => do
    if (← key first).isSome then
      colon
      readShape n of
      readTable n of false

/-- Reads the members of a record; `seen` are the keys there were. -/
def readRecord : Nat → List (String × Bool × Shape) → List String → Reader Unit
  | 0, _, _ => pure ()
  | n + 1, fields, seen => do
    let c ← get
    match ← key seen.isEmpty with
    | none =>
      match absent? fields seen with
      | some name => throw (.within c ("missing field `" ++ name ++ "`"))
      | none => pure ()
    | some k =>
      match fields.lookup k with
      | none =>
        colon
        readShape n .anything
      | some (_, s) =>
        if seen.contains k then complain (.within · ("duplicate field `" ++ k ++ "`"))
        colon
        readShape n s
      readRecord n fields (k :: seen)

/-- Reads a record that is an array; `i` fields of `count` have been read. -/
def readFields : Nat → String → Nat → Nat → List (String × Bool × Shape) → Reader Unit
  | 0, _, _, _, _ => pure ()
  | _ + 1, _, _, _, [] => lastItem
  | n + 1, title, count, i, (_, required, s) :: fields => do
    let c ← get
    if ← anotherItem (i == 0) then
      readShape n s
      readFields n title count (i + 1) fields
    else if required then
      throw (.within c ("invalid length " ++ toString i ++ ", expected " ++ title ++ " with "
        ++ toString count ++ " elements"))
    else
      set c
      readFields n title count i fields

end

/-- What is wrong with a document of a shape, if anything is. -/
def complaint? (s : Shape) (bytes : List UInt8) : Option String :=
  let whole : Reader Unit := do
    readShape (2 * bytes.length + 10) s
    match ← Reader.peek with
    | none => pure ()
    | some _ => Reader.complain (.ahead · "trailing characters")
  match whole.run { rest := bytes } with
  | .ok _ => none
  | .error e => some e.text

end Interpose.Json
