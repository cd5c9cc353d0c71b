/-
Interpose.Time.Span — lengths of time as people write them.

A span is a sum of parts, each a number and a unit: `1h 30m`, `1.5s`. Blanks
may stand anywhere but inside a unit. A number may have a fraction, but
only one that the unit can hold exactly: from the hour up a fraction must
come to whole seconds, below that to whole nanoseconds. Every intermediate
number has to fit into a word of 64 bits. Faults are told by the byte where
they show.
-/
import Interpose.Time.Duration
import Interpose.Text.Blank
import Interpose.Text.Decimal
import Interpose.Text.Quoted

namespace Interpose.Span

/-! ## Faults -/

inductive Fault where
  | empty
  | numberExpected (byte : Nat)
  | invalidCharacter (byte : Nat)
  | tooLarge
  /-- A number without a unit, or with one nobody knows. -/
  | unknownUnit (unit : String) (number : Nat)
  deriving DecidableEq, Repr

def Fault.message : Fault → String
  | empty => "value was empty"
  | numberExpected n => "expected number at " ++ toString n
  | invalidCharacter n => "invalid character at " ++ toString n
  | tooLarge => "number is too large or cannot be represented without a lack of precision "
      ++ "(values below 1ns are not supported)"
  | unknownUnit u n =>
    if u = "" then
      "time unit needed, for example " ++ toString n ++ "sec or " ++ toString n ++ "ms"
    else
      "unknown time unit " ++ Text.quoted u ++ ", supported units: ns, us/µs, ms, sec, min, "
        ++ "hours, days, weeks, months, years (and few variations)"

/-! ## Units -/

inductive TimeUnit where
  | nanosecond
  | microsecond
  | millisecond
  | second
  | minute
  | hour
  | day
  | week
  | month
  | year
  deriving DecidableEq, Repr

namespace TimeUnit

/-- The names of each unit. Letters count as they are: `M` is a month, `m` a minute. -/
def names : TimeUnit → List String
  | nanosecond => ["nanos", "nsec", "ns"]
  | microsecond => ["usec", "us", "µs"]
  | millisecond => ["millis", "msec", "ms"]
  | second => ["seconds", "second", "secs", "sec", "s"]
  | minute => ["minutes", "minute", "min", "mins", "m"]
  | hour => ["hours", "hour", "hrs", "hr", "h"]
  | day => ["days", "day", "d"]
  | week => ["weeks", "week", "wk", "wks", "w"]
  | month => ["months", "month", "M"]
  | year => ["years", "year", "yr", "yrs", "y"]

def all : List TimeUnit :=
  [nanosecond, microsecond, millisecond, second, minute, hour, day, week, month, year]

def ofName? (s : String) : Option TimeUnit := all.find? fun u => u.names.contains s

/-- One unit in seconds and nanoseconds; a month is 30.44 days, a year 365.25. -/
def length : TimeUnit → Nat × Nat
  | nanosecond => (0, 1)
  | microsecond => (0, 1000)
  | millisecond => (0, 1000000)
  | second => (1, 0)
  | minute => (60, 0)
  | hour => (3600, 0)
  | day => (86400, 0)
  | week => (604800, 0)
  | month => (2630016, 0)
  | year => (31557600, 0)

/-- One unit as its fractions are counted; a nanosecond has none. -/
def fine? : TimeUnit → Option (Nat × Nat)
  | nanosecond => none
  | second => some (0, 1000000000)
  | minute => some (0, 60000000000)
  | u => some u.length

end TimeUnit

/-! ## Adding up -/

/-- The digits behind a point: `num / den`. -/
structure Fraction where
  num : Nat := 0
  den : Nat := 1
  deriving DecidableEq, Repr

/-- A number that fits into a word. -/
def fitting (n : Nat) : Except Fault Nat := if n < UInt64.size then .ok n else .error .tooLarge

/-- Adds seconds and nanoseconds, both already fitting. -/
def add (d : Duration) (secs nanos : Nat) : Except Fault Duration := do
  let n ← fitting (d.nanos.toNat + nanos)
  let s ← fitting (d.secs.toNat + secs + n / 1000000000)
  .ok { secs := UInt64.ofNat s, nanos := UInt32.ofNat (n % 1000000000) }

/-- `k / den` of a unit's length, if it comes out even. -/
def share (k den : Nat) (length : Nat × Nat) : Except Fault (Nat × Nat) := do
  let s ← fitting (k * length.1)
  let n ← fitting (k * length.2)
  if s % den = 0 ∧ n % den = 0 then .ok (s / den, n / den) else .error .tooLarge

/-- Adds one part. -/
def addPart (d : Duration) (n : Nat) (frac : Option Fraction) (unit : List Char) :
    Except Fault Duration :=
  let name := String.ofList unit
  match TimeUnit.ofName? name with
  | none => .error (.unknownUnit name n)
  | some u => do
    let (s, ns) ← share n 1 u.length
    let d ← add d s ns
    match frac with
    | none => .ok d
    | some f =>
      match u.fine? with
      | none => .error .tooLarge
      | some fine =>
        let (s, ns) ← share f.num f.den fine
        add d s ns

/-! ## Reading -/

/-- What is being read. -/
inductive Phase where
  /-- Blanks before a number; `start` is where they began. -/
  | gap (start : Nat)
  | digits (n : Nat)
  /-- The digits behind a point; `last` is the byte behind the last character
  that counted, or that of the point. -/
  | fraction (n : Nat) (f : Fraction) (last : Nat)
  /-- The letters of a unit, last one first. -/
  | unit (n : Nat) (f : Option Fraction) (letters : List Char)

def isUnitLetter (c : Char) : Bool := c.isAlpha || c = 'µ'

/-- The fraction so far as a whole: there must be a digit behind the point. -/
def closeFraction (f : Fraction) (last : Nat) : Except Fault Fraction :=
  if f.den = 1 then .error (.invalidCharacter last) else .ok f

/-- Takes one character, at byte `pos` of the text and of `width` bytes. -/
def step (p : Phase) (pos width : Nat) (c : Char) (sum : Duration) :
    Except Fault (Phase × Duration) :=
  match p with
  | .gap start =>
    match Text.digit? c with
    | some d => .ok (.digits d, sum)
    | none => if Text.isBlank c then .ok (p, sum) else .error (.numberExpected start)
  | .digits n =>
    match Text.digit? c with
    | some d => (fitting (10 * n + d)).map fun n => (.digits n, sum)
    | none =>
      if Text.isBlank c then .ok (p, sum)
      else if isUnitLetter c then .ok (.unit n none [c], sum)
      else if c = '.' then .ok (.fraction n {} pos, sum)
      else .error (.invalidCharacter pos)
  | .fraction n f last =>
    match Text.digit? c with
    | some d => do
      let den ← fitting (10 * f.den)
      let num ← fitting (10 * f.num + d)
      .ok (.fraction n { num, den } (pos + width), sum)
    | none =>
      if Text.isBlank c then .ok (.fraction n f (pos + width), sum)
      else if isUnitLetter c then
        (closeFraction f last).map fun f => (.unit n (some f) [c], sum)
      else .error (.invalidCharacter last)
  | .unit n f letters =>
    match Text.digit? c with
    | some d => (addPart sum n f letters.reverse).map fun sum => (.digits d, sum)
    | none =>
      if Text.isBlank c then
        (addPart sum n f letters.reverse).map fun sum => (.gap (pos + width), sum)
      else if isUnitLetter c then .ok (.unit n f (c :: letters), sum)
      else .error (.invalidCharacter pos)

/-- Reads to the end. -/
def readFrom (p : Phase) (pos : Nat) (sum : Duration) : List Char → Except Fault Duration
  | [] =>
    match p with
    | .gap start => if start = 0 then .error .empty else .ok sum
    | .digits n => addPart sum n none []
    | .fraction n f last => do
      let f ← closeFraction f last
      addPart sum n (some f) []
    | .unit n f letters => addPart sum n f letters.reverse
  | c :: r => do
    let (p, sum) ← step p pos c.utf8Size c sum
    readFrom p (pos + c.utf8Size) sum r

/-- Reads a span. -/
def parse (cs : List Char) : Except Fault Duration := readFrom (.gap 0) 0 {} cs

end Interpose.Span
