/-
Interpose.Net.Address — socket addresses as text.

An IPv4 address is four numbers without zeros in front. An IPv6 address is
eight groups of hexadecimal digits; the last two may be written as an IPv4
address, and one run of zero groups as two colons. Printing gives each
address one form: the longest run of at least two zero groups is
shortened, the first of them where two are of a length, and only an IPv4
address mapped into IPv6 is written with dots.
-/
import Interpose.Text.Decimal
import Interpose.Text.Hex
import Interpose.Text.Cut

namespace Interpose.Net

/-- An IPv4 address as its four bytes, an IPv6 address as its eight groups. -/
inductive Ip where
  | v4 (bytes : List Nat)
  | v6 (groups : List Nat) (zone : Nat)
  deriving DecidableEq, Repr, Inhabited

structure Address where
  ip : Ip
  portNumber : Nat
  deriving DecidableEq, Repr, Inhabited

/-! ## Reading -/

/-- The number at the front in some base, its digits counted by `most` and
its value bounded by `limit`. -/
def number? (value? : Char → Option Nat) (base most limit : Nat) (cs : List Char) :
    Option (Nat × List Char) :=
  let digits := cs.takeWhile fun c => (value? c).isSome
  let n := digits.foldl (fun n c => base * n + (value? c).getD 0) 0
  if digits.isEmpty || most < digits.length || limit < n then none
  else some (n, cs.drop digits.length)

/-- One byte of an IPv4 address: no zero stands in front of another digit. -/
def octet? (cs : List Char) : Option (Nat × List Char) :=
  match cs with
  | '0' :: c :: _ => if c.isDigit then none else number? Text.digit? 10 3 255 cs
  | _ => number? Text.digit? 10 3 255 cs

/-- The IPv4 address at the front. -/
def v4? (cs : List Char) : Option (List Nat × List Char) := do
  let (a, cs) ← octet? cs
  let cs ← Text.dropLead? ['.'] cs
  let (b, cs) ← octet? cs
  let cs ← Text.dropLead? ['.'] cs
  let (c, cs) ← octet? cs
  let cs ← Text.dropLead? ['.'] cs
  let (d, cs) ← octet? cs
  some ([a, b, c, d], cs)

/-- One group of an IPv6 address. -/
def group? (cs : List Char) : Option (Nat × List Char) := number? Text.Hex.value? 16 4 0xFFFF cs

/-- What stands at the front: nothing, or a colon and more. -/
def afterColon? (first : Bool) (cs : List Char) : Option (List Char) :=
  if first then some cs else Text.dropLead? [':'] cs

/-- Reads up to `room` groups with colons between them; also answers whether
the last two were written as an IPv4 address. -/
def groups (first : Bool) : Nat → List Char → List Nat × Bool × List Char
  | 0, cs => ([], false, cs)
  | room + 1, cs =>
    match if room = 0 then none else (afterColon? first cs).bind v4? with
    | some (b, rest) =>
      ([256 * b.getD 0 0 + b.getD 1 0, 256 * b.getD 2 0 + b.getD 3 0], true, rest)
    | none =>
      match (afterColon? first cs).bind group? with
      | some (g, rest) =>
        let (gs, dotted, rest) := groups false room rest
        (g :: gs, dotted, rest)
      | none => ([], false, cs)

/-- The IPv6 address at the front. -/
def v6? (cs : List Char) : Option (List Nat × List Char) :=
  let (head, dotted, rest) := groups true 8 cs
  if head.length = 8 then some (head, rest)
  else if dotted then none
  else do
    let rest ← Text.dropLead? [':', ':'] rest
    let (tail, _, rest) := groups true (7 - head.length) rest
    some (head ++ List.replicate (8 - head.length - tail.length) 0 ++ tail, rest)

/-- The number behind a percent sign, or nought where there is none. -/
def zone (cs : List Char) : Nat × List Char :=
  ((Text.dropLead? ['%'] cs).bind (number? Text.digit? 10 cs.length (UInt32.size - 1))).getD (0, cs)

/-- The end of an address: a colon, a number below 65536 and nothing else. -/
def portNumber? (cs : List Char) : Option Nat := do
  let cs ← Text.dropLead? [':'] cs
  let (portNumber, rest) ← number? Text.digit? 10 cs.length 65535 cs
  if rest.isEmpty then some portNumber else none

/-- Reads an address with the number behind it. -/
def Address.read? (cs : List Char) : Option Address :=
  match cs with
  | '[' :: cs => do
    let (gs, cs) ← v6? cs
    let (zone, cs) := zone cs
    let cs ← Text.dropLead? [']'] cs
    let portNumber ← portNumber? cs
    some { ip := .v6 gs zone, portNumber }
  | cs => do
    let (bytes, cs) ← v4? cs
    let portNumber ← portNumber? cs
    some { ip := .v4 bytes, portNumber }

def Address.parse? (s : String) : Option Address := Address.read? s.toList

/-! ## Printing -/

def joinNumbers (sep : String) (f : Nat → String) (ns : List Nat) : String :=
  String.intercalate sep (ns.map f)

def v4Text (bytes : List Nat) : String := joinNumbers "." toString bytes

def groupText (g : Nat) : String := String.ofList (Nat.toDigits 16 g)

/-- The run of zeros at the front of the groups that are left. -/
def zerosAhead (gs : List Nat) : Nat := (gs.takeWhile (· == 0)).length

/-- Where the longest run of zeros begins and how long it is; the first of
equally long runs. -/
def longestRun (gs : List Nat) : Nat × Nat :=
  (List.range gs.length).foldl
    (fun best i =>
      let n := zerosAhead (gs.drop i)
      if best.2 < n then (i, n) else best)
    (0, 0)

def v6Text (gs : List Nat) : String :=
  match gs with
  | [0, 0, 0, 0, 0, 0xFFFF, a, b] => "::ffff:" ++ v4Text [a / 256, a % 256, b / 256, b % 256]
  | _ =>
    let (start, length) := longestRun gs
    if length < 2 then joinNumbers ":" groupText gs
    else joinNumbers ":" groupText (gs.take start) ++ "::"
      ++ joinNumbers ":" groupText (gs.drop (start + length))

def Address.text (a : Address) : String :=
  (match a.ip with
    | .v4 bytes => v4Text bytes
    | .v6 gs zone => "[" ++ v6Text gs ++ (if zone = 0 then "" else "%" ++ toString zone) ++ "]")
    ++ ":" ++ toString a.portNumber

end Interpose.Net
