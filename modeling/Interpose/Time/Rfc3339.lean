/-
Interpose.Time.Rfc3339 — moments as texts, after RFC 3339.

Writing gives as many digits of the fraction as are needed, in groups of
three. Reading is more lenient than the standard: blanks may stand in front
of each number and each mark, numbers may have fewer digits, and a year
with a sign may have more.
-/
import Interpose.Time.DateTime
import Interpose.Text.Blank

namespace Interpose

/-! ## Writing -/

/-- The fraction of a second. -/
def DateTime.fractionText (d : DateTime) : String :=
  let n := d.subsecond
  if n = 0 then ""
  else if n % 1000000 = 0 then "." ++ Text.padded 3 (n / 1000000)
  else if n % 1000 = 0 then "." ++ Text.padded 6 (n / 1000)
  else "." ++ Text.padded 9 n

/-- A moment, with the given text for its zone, which is UTC. -/
def DateTime.rfc3339 (zone : String) (d : DateTime) : String :=
  d.dateText ++ "T" ++ d.clockText ++ d.fractionText ++ zone

namespace Rfc3339

/-! ## Reading: parts -/

/-- A number of at least one digit, and of no more than `width` of them. -/
def number? (width : Nat) (cs : List Char) : Option (Nat × List Char) :=
  let ds := (cs.take width).takeWhile (·.isDigit)
  (Text.nat? ds).map (·, cs.drop ds.length)

/-- A number after blanks. -/
def spacedNumber? (width : Nat) (cs : List Char) : Option (Nat × List Char) :=
  number? width (Text.trimStart cs)

/-- What follows a mark; blanks may stand in front of it. -/
def mark? (c : Char) (cs : List Char) : Option (List Char) :=
  match Text.trimStart cs with
  | x :: r => if x = c then some r else none
  | [] => none

/-- A year: four digits at most, or with a sign as many as there are. -/
def year? (cs : List Char) : Option (Int × List Char) :=
  match Text.trimStart cs with
  | '-' :: r => (number? r.length r).map fun p => (-(p.1 : Int), p.2)
  | '+' :: r => (number? r.length r).map fun p => ((p.1 : Int), p.2)
  | cs => (number? 4 cs).map fun p => ((p.1 : Int), p.2)

/-- A fraction in nanoseconds, if there is a point. Digits after the ninth
are passed over. -/
def fraction? : List Char → Option (Nat × List Char)
  | '.' :: r => (number? 9 r).map fun (n, rest) =>
      (n * Nat.pow 10 (9 - (r.length - rest.length)), rest.dropWhile (·.isDigit))
  | cs => some (0, cs)

/-- Two digits. -/
def twoDigits? : List Char → Option (Nat × List Char)
  | a :: b :: r => do return (10 * (← Text.digit? a) + (← Text.digit? b), r)
  | _ => none

/-- Hours and minutes of an offset, in minutes. -/
def offsetSize? (cs : List Char) : Option (Nat × List Char) := do
  let (h, r) ← twoDigits? cs
  let (m, r) ← twoDigits? (r.dropWhile fun c => c = ':' || Text.isBlank c)
  if m < 60 ∧ h < 24 then some (60 * h + m, r) else none

/-- The offset from UTC in minutes. -/
def zone? (cs : List Char) : Option (Int × List Char) :=
  match Text.trimStart cs with
  | 'Z' :: r | 'z' :: r => some (0, r)
  | '+' :: r => (offsetSize? r).map fun p => ((p.1 : Int), p.2)
  | '-' :: r | '−' :: r => (offsetSize? r).map fun p => (-(p.1 : Int), p.2)
  | a :: b :: c :: r =>
    if a.toUpper = 'U' ∧ b.toUpper = 'T' ∧ c.toUpper = 'C' then some (0, r) else none
  | _ => none

/-! ## Reading: moments -/

/-- The moment of a date, a time of day and an offset. The date must exist
and, as must the moment, lie in range; sixty seconds are a leap second. -/
def moment? (date : Time.Date) (h m s nanos : Nat) (offset : Int) : Option DateTime :=
  let midnight := date.dayNumber * 86400
  if date.exists? ∧ h < 24 ∧ m < 60 ∧ s ≤ 60 ∧ firstSecond ≤ midnight ∧ midnight ≤ lastSecond then
    let leap := s = 60
    DateTime.of? (midnight + 3600 * h + 60 * m + (if leap then 59 else s) - 60 * offset)
      (nanos + if leap then 1000000000 else 0)
  else none

/-- Reads a moment. -/
def read? (cs : List Char) : Option DateTime := do
  let (year, cs) ← year? cs
  let cs ← mark? '-' cs
  let (month, cs) ← spacedNumber? 2 cs
  let cs ← mark? '-' cs
  let (day, cs) ← spacedNumber? 2 cs
  let cs ← match cs with
    | 'T' :: r | 't' :: r | ' ' :: r => some r
    | _ => none
  let (h, cs) ← spacedNumber? 2 cs
  let cs ← mark? ':' cs
  let (m, cs) ← spacedNumber? 2 cs
  let cs ← mark? ':' cs
  let (s, cs) ← spacedNumber? 2 cs
  let (nanos, cs) ← fraction? cs
  let (offset, cs) ← zone? cs
  if Text.allBlank cs then moment? { year, month, day } h m s nanos offset else none

def parse? (s : String) : Option DateTime := read? s.toList

end Rfc3339

end Interpose
