/-
Interpose.Time.Calendar — dates, and days since 1970 began.

The Gregorian calendar is continued in both directions without end. Years
are counted from March here, so that the day a leap year adds is the last
one; four hundred years make an era, and all eras are alike.
-/
namespace Interpose.Time

structure Date where
  year : Int
  month : Nat
  day : Nat
  deriving DecidableEq, Repr, Inhabited

/-! ## Lengths -/

def isLeapYear (y : Int) : Bool := y % 4 == 0 && (y % 100 != 0 || y % 400 == 0)

def daysInMonth (y : Int) (m : Nat) : Nat :=
  if m = 2 then if isLeapYear y then 29 else 28
  else if m = 4 ∨ m = 6 ∨ m = 9 ∨ m = 11 then 30
  else 31

/-- A date the calendar has. -/
def Date.exists? (d : Date) : Bool :=
  1 ≤ d.month && d.month ≤ 12 && 1 ≤ d.day && d.day ≤ daysInMonth d.year d.month

/-! ## Days -/

/-- The days of an era. -/
def eraDays : Int := 146097

/-- The first day of 1970, in days since March of the year nought. -/
def epochDay : Int := 719468

/-- The days from March to the first of a month, months counted from March. -/
def daysBeforeMonth (m : Int) : Int := (153 * m + 2) / 5

/-- The days before a year of its era. -/
def daysBeforeYear (y : Int) : Int := 365 * y + y / 4 - y / 100

/-- The day of a date, counted from the first of January 1970. -/
def Date.dayNumber (d : Date) : Int :=
  let y := if d.month ≤ 2 then d.year - 1 else d.year
  let m : Int := (d.month + 9) % 12
  (y / 400) * eraDays + daysBeforeYear (y % 400) + daysBeforeMonth m + (d.day - 1) - epochDay

/-- The date of a day. -/
def Date.ofDayNumber (n : Int) : Date :=
  let day := n + epochDay
  let ofEra := day % eraDays
  let yearOfEra := (ofEra - ofEra / 1460 + ofEra / 36524 - ofEra / 146096) / 365
  let ofYear := ofEra - daysBeforeYear yearOfEra
  let m := (5 * ofYear + 2) / 153
  let month := if m < 10 then m + 3 else m - 9
  { year := day / eraDays * 400 + yearOfEra + (if month ≤ 2 then 1 else 0)
    month := month.toNat
    day := (ofYear - daysBeforeMonth m + 1).toNat }

end Interpose.Time
