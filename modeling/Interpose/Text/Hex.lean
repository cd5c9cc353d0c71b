/-
Interpose.Text.Hex — lowercase hexadecimal.

Two digits for each byte, high half first. Reading takes either case,
writing gives lowercase.
-/
namespace Interpose.Text.Hex

/-- The digit of a value below sixteen. -/
def digit (n : Nat) : Char :=
  if n < 10 then Char.ofNat (48 + n) else Char.ofNat (87 + n)

/-- The value of a digit. -/
def value? (c : Char) : Option Nat :=
  if c.isDigit then some (c.toNat - 48)
  else if 'a' ≤ c ∧ c ≤ 'f' then some (c.toNat - 87)
  else if 'A' ≤ c ∧ c ≤ 'F' then some (c.toNat - 55)
  else none

/-- The two digits of a byte. -/
def ofByte (b : UInt8) : List Char := [digit (b.toNat / 16), digit (b.toNat % 16)]

def ofBytes (bs : List UInt8) : String := String.ofList (bs.flatMap ofByte)

/-- Reads digits in pairs. -/
def bytes? : List Char → Option (List UInt8)
  | [] => some []
  | h :: l :: r => do
    let hi ← value? h
    let lo ← value? l
    return UInt8.ofNat (16 * hi + lo) :: (← bytes? r)
  | [_] => none

/-- The sixteen digits of a word. -/
def word (bits : UInt64) : String :=
  ofBytes ((List.range 8).map fun i => (bits >>> (UInt64.ofNat (8 * (7 - i)))).toUInt8)

/-- Reads a word of at most sixteen digits. -/
def word? (cs : List Char) : Option UInt64 :=
  (cs.foldl (fun acc c => acc.bind fun n => (value? c).map (16 * n + ·)) (some 0)).map UInt64.ofNat

end Interpose.Text.Hex
