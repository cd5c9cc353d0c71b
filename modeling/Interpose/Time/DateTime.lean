/-
Interpose.Time.DateTime — moments that have a date.

A moment is a number of seconds and nanoseconds. A leap second is written
as a fifty-ninth second with a thousand million nanoseconds or more, so
that it has a date of its own and still falls into its minute. Moments
range over the years from -262143 to 262142.
-/
import Interpose.Time.Calendar
import Interpose.Time.Timestamp
import Interpose.Text.Decimal

namespace Interpose

/-! ## Moments -/

/-- The first second of the year -262143. -/
def firstSecond : Int := -8334601228800

/-- The last second of the year 262142. -/
def lastSecond : Int := 8210266876799

/-- Whether seconds and nanoseconds are those of a moment. -/
def IsMoment (secs : Int) (nanos : Nat) : Prop :=
  firstSecond ≤ secs ∧ secs ≤ lastSecond ∧ nanos < 2000000000
    ∧ (1000000000 ≤ nanos → secs % 60 = 59)

instance (secs : Int) (nanos : Nat) : Decidable (IsMoment secs nanos) := by
  unfold IsMoment; infer_instance

/-- A moment in UTC. -/
structure DateTime where
  /-- Seconds since 1970 began. -/
  secs : Int
  nanos : Nat
  isMoment : IsMoment secs nanos
  deriving DecidableEq

namespace DateTime

/-- The beginning of 1970. -/
def epoch : DateTime := ⟨0, 0, by decide⟩

instance : Inhabited DateTime := ⟨epoch⟩

def of? (secs : Int) (nanos : Nat) : Option DateTime :=
  if h : IsMoment secs nanos then some ⟨secs, nanos, h⟩ else none

/-! ## Other forms -/

/-- The moment of a timestamp. Negative nanoseconds count as none. -/
def ofTimestamp? (t : Timestamp) : Option DateTime := of? t.seconds.toInt t.nanos.toInt.toNat

def toTimestamp (d : DateTime) : Timestamp where
  seconds := Int64.ofInt d.secs
  nanos := Int32.ofInt d.nanos

/-- Whole microseconds since 1970 began. -/
def micros (d : DateTime) : Int64 := Int64.ofInt (d.secs * 1000000 + d.nanos / 1000)

def ofMicros? (n : Int64) : Option DateTime :=
  of? (n.toInt / 1000000) ((n.toInt % 1000000).toNat * 1000)

/-! ## Date and time of day -/

def date (d : DateTime) : Time.Date := Time.Date.ofDayNumber (d.secs / 86400)

/-- Seconds since the day began; a leap second counts as the one before it. -/
def secondOfDay (d : DateTime) : Nat := (d.secs % 86400).toNat

def isLeapSecond (d : DateTime) : Bool := 1000000000 ≤ d.nanos

/-- The second of the minute; sixty in a leap second. -/
def second (d : DateTime) : Nat := d.secondOfDay % 60 + if d.isLeapSecond then 1 else 0

/-- Nanoseconds since the second began. -/
def subsecond (d : DateTime) : Nat := d.nanos % 1000000000

/-- A year; one that does not have four digits has a sign. -/
def yearText (y : Int) : String :=
  if 0 ≤ y ∧ y ≤ 9999 then Text.padded 4 y.toNat
  else (if y < 0 then "-" else "+") ++ Text.padded 4 y.natAbs

def dateText (d : DateTime) : String :=
  let date := d.date
  yearText date.year ++ "-" ++ Text.padded 2 date.month ++ "-" ++ Text.padded 2 date.day

def clockText (d : DateTime) : String :=
  Text.padded 2 (d.secondOfDay / 3600) ++ ":" ++ Text.padded 2 (d.secondOfDay / 60 % 60) ++ ":"
    ++ Text.padded 2 d.second

/-- Date and time to the second. -/
def toSecond (d : DateTime) : String := d.dateText ++ " " ++ d.clockText

end DateTime

end Interpose
