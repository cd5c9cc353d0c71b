/-
Interpose.Text.Decimal — whole numbers in decimal.

Reading takes ASCII digits only, at least one of them; the callers set the
bound of their own field. The readers with a question mark answer only
whether there is a number. `whole` and `natural` also say what is wrong,
and it is the first character that settles it: a stray letter behind a
number that is already too large does not count.
-/
namespace Interpose.Text

/-- The value of one ASCII digit. -/
def digit? (c : Char) : Option Nat :=
  if c.isDigit then some (c.toNat - '0'.toNat) else none

/-- Reads further digits onto a value already read. -/
def readDigits : Nat → List Char → Option Nat
  | acc, [] => some acc
  | acc, c :: r => (digit? c).bind fun d => readDigits (10 * acc + d) r

/-- A number of at least one digit and nothing else. -/
def nat? : List Char → Option Nat
  | [] => none
  | cs => readDigits 0 cs

/-- A number below `bound`; one plus sign may stand in front, a minus sign may not. -/
def unsigned? (bound : Nat) (cs : List Char) : Option Nat :=
  let digits := match cs with
    | '+' :: r => r
    | _ => cs
  (nat? digits).filter (· < bound)

/-- A number from `-bound` up to, not including, `bound`; either sign may stand in front. -/
def signed? (bound : Nat) (cs : List Char) : Option Int :=
  match cs with
  | '-' :: r => ((nat? r).filter (· ≤ bound)).map fun n => -(n : Int)
  | _ => (unsigned? bound cs).map fun n => (n : Int)

/-- A word of 32 bits without a sign. -/
def uint32? (s : String) : Option UInt32 := (unsigned? UInt32.size s.toList).map UInt32.ofNat

/-- A word of 64 bits without a sign. -/
def uint64? (s : String) : Option UInt64 := (unsigned? UInt64.size s.toList).map UInt64.ofNat

/-- A word of 32 bits with a sign. -/
def int32? (s : String) : Option Int32 := (signed? (UInt32.size / 2) s.toList).map Int32.ofInt

/-- A word of 64 bits with a sign. -/
def int64? (s : String) : Option Int64 := (signed? (UInt64.size / 2) s.toList).map Int64.ofInt

/-! ## Reading with reasons -/

inductive NumberFault where
  | empty
  | badDigit
  | tooLarge
  | tooSmall
  deriving DecidableEq, Repr

def NumberFault.message : NumberFault → String
  | empty => "cannot parse integer from empty string"
  | badDigit => "invalid digit found in string"
  | tooLarge => "number too large to fit in target type"
  | tooSmall => "number too small to fit in target type"

/-- Reads further digits onto a value, up to `limit` and no further. -/
def readDigitsUpTo (limit : Nat) (past : NumberFault) : Nat → List Char → Except NumberFault Nat
  | acc, [] => .ok acc
  | acc, c :: r =>
    match digit? c with
    | none => .error .badDigit
    | some d =>
      if 10 * acc + d ≤ limit then readDigitsUpTo limit past (10 * acc + d) r else .error past

/-- At least one digit. -/
def natDigits (limit : Nat) (past : NumberFault) : List Char → Except NumberFault Nat
  | [] => .error .badDigit
  | cs => readDigitsUpTo limit past 0 cs

/-- A number below `bound`; one plus sign may stand in front. -/
def natural (bound : Nat) : List Char → Except NumberFault Nat
  | [] => .error .empty
  | '+' :: r => natDigits (bound - 1) .tooLarge r
  | cs => natDigits (bound - 1) .tooLarge cs

/-- A number from `-bound` up to, not including, `bound`; either sign may stand in front. -/
def whole (bound : Nat) : List Char → Except NumberFault Int
  | [] => .error .empty
  | '-' :: r => (natDigits bound .tooSmall r).map fun n => -(n : Int)
  | '+' :: r => (natDigits (bound - 1) .tooLarge r).map fun n => (n : Int)
  | cs => (natDigits (bound - 1) .tooLarge cs).map fun n => (n : Int)

/-! ## Printing -/

/-- A number in decimal, with zeros in front up to the given width. -/
def padded (width n : Nat) : String :=
  let ds := Nat.toDigits 10 n
  String.ofList (List.replicate (width - ds.length) '0' ++ ds)

end Interpose.Text
