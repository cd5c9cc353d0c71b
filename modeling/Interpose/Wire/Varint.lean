/-
Interpose.Wire.Varint — whole numbers of variable length.

Seven bits a byte, low ones first, with the high bit set on every byte but
the last. A number has 64 bits, so the tenth byte may hold one bit only;
needless zero bytes at the end are read all the same.
-/
namespace Interpose.Wire

/-- The bytes of a number. -/
def writeVarint (n : Nat) : List UInt8 :=
  if n < 128 then [UInt8.ofNat n]
  else UInt8.ofNat (n % 128 + 128) :: writeVarint (n / 128)

/-- Reads on after `count` bytes that came to `acc`. -/
def readVarintFrom (count acc : Nat) : List UInt8 → Option (Nat × List UInt8)
  | [] => none
  | b :: r =>
    if b.toNat < 128 then
      if count = 9 ∧ 2 ≤ b.toNat then none else some (acc + b.toNat * Nat.pow 128 count, r)
    else if 9 ≤ count then none
    else readVarintFrom (count + 1) (acc + (b.toNat - 128) * Nat.pow 128 count) r

/-- Reads a number, and answers what follows it. -/
def readVarint (bs : List UInt8) : Option (Nat × List UInt8) := readVarintFrom 0 0 bs

/-! ## What is left is shorter -/

theorem length_readVarintFrom {count acc n : Nat} {bs r : List UInt8}
    (h : readVarintFrom count acc bs = some (n, r)) : r.length < bs.length := by
  induction bs generalizing count acc with
  | nil => simp [readVarintFrom] at h
  | cons b bs ih =>
    simp only [readVarintFrom] at h
    split at h
    · split at h
      · simp at h
      · simp only [Option.some.injEq, Prod.mk.injEq] at h
        simp [h.2]
    · split at h
      · simp at h
      · have := ih h
        simp only [List.length_cons]
        omega

theorem length_readVarint {n : Nat} {bs r : List UInt8} (h : readVarint bs = some (n, r)) :
    r.length < bs.length :=
  length_readVarintFrom h

end Interpose.Wire
