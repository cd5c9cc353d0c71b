/-
Interpose.Proofs.Wire.Field — fields that were written are read as they were.

A number below 2^64 takes at most ten bytes, and the tenth holds its last
bit (`readVarintFrom_writeVarint`, whose hypothesis is that the number,
moved to the place its bytes begin at, still fits). So keys and lengths are
read as they were written, and with them fields (`readField_writeField`)
and lists of fields (`readFields_writeFields`), as far as the fields are
of the kinds that are written at all (`Field.Written`).
-/
import Interpose.Wire.Field

namespace Interpose.Wire

/-! ## Numbers -/

theorem readVarintFrom_writeVarint (n count acc : Nat) (r : List UInt8)
    (hfits : n * Nat.pow 128 count < UInt64.size) :
    readVarintFrom count acc (writeVarint n ++ r) = some (acc + n * Nat.pow 128 count, r) := by
  replace hfits : n * 128 ^ count < 2 ^ 64 := hfits
  show _ = some (acc + n * 128 ^ count, r)
  induction n using Nat.strongRecOn generalizing count acc with
  | ind n ih =>
    rw [writeVarint]
    split
    · rename_i hsmall
      have hbyte : (UInt8.ofNat n).toNat = n := by rw [UInt8.toNat_ofNat']; omega
      have hlast : ¬(count = 9 ∧ 2 ≤ n) := by
        rintro ⟨rfl, htwo⟩
        omega
      rw [List.singleton_append, readVarintFrom, hbyte, if_pos hsmall, if_neg hlast]
      rfl
    · rename_i hlarge
      have hbyte : (UInt8.ofNat (n % 128 + 128)).toNat = n % 128 + 128 := by
        rw [UInt8.toNat_ofNat']
        omega
      have hplace : ¬9 ≤ count := by
        intro hle
        have hpow : 128 ^ 9 ≤ 128 ^ count := Nat.pow_le_pow_right (by decide) hle
        have hmul : 128 * 128 ^ 9 ≤ n * 128 ^ count := Nat.mul_le_mul (by omega) hpow
        omega
      have hsplit : n % 128 * 128 ^ count + n / 128 * 128 ^ (count + 1) = n * 128 ^ count := by
        rw [Nat.pow_succ', ← Nat.mul_assoc, ← Nat.add_mul, Nat.mod_add_div']
      rw [List.cons_append, readVarintFrom, hbyte, if_neg (by omega), if_neg hplace,
        ih (n / 128) (by omega) (count + 1) _ (by omega), Nat.add_sub_cancel, Nat.add_assoc]
      show some (acc + (n % 128 * 128 ^ count + n / 128 * 128 ^ (count + 1)), r) = _
      rw [hsplit]

/-- **A number is read as it was written.** -/
theorem readVarint_writeVarint {n : Nat} (hn : n < UInt64.size) (r : List UInt8) :
    readVarint (writeVarint n ++ r) = some (n, r) := by
  have hplace : n * Nat.pow 128 0 = n := Nat.mul_one n
  rw [readVarint, readVarintFrom_writeVarint n 0 0 r (by rwa [hplace]), hplace, Nat.zero_add]

/-! ## Fields -/

/-- A payload of a kind that is written, and not too long to tell its length. -/
def Payload.Written : Payload → Prop
  | .varint _ => True
  | .bytes bs => bs.length < UInt64.size
  | _ => False

/-- A number that a field may have. -/
def IsNumber (n : Nat) : Prop := 0 < n ∧ 8 * n + 8 ≤ UInt32.size

instance (n : Nat) : Decidable (IsNumber n) := inferInstanceAs (Decidable (_ ∧ _))

structure Field.Written (f : Field) : Prop where
  number : IsNumber f.number
  payload : f.payload.Written

theorem readKey_writeKey {number form : Nat} (hnumber : IsNumber number) (hform : form < 8)
    (r : List UInt8) : readKey (writeKey number form ++ r) = some (number, form, r) := by
  obtain ⟨hpos, hmax⟩ := hnumber
  have hsize : UInt32.size < UInt64.size := by decide
  rw [readKey, writeKey, readVarint_writeVarint (by omega), Option.bind_some]
  dsimp only
  rw [if_pos (by omega), show (8 * number + form) / 8 = number by omega,
    show (8 * number + form) % 8 = form by omega]

theorem readBytes_written {bs : List UInt8} (hlen : bs.length < UInt64.size) (r : List UInt8) :
    readBytes (writeVarint bs.length ++ (bs ++ r)) = some (bs, r) := by
  rw [readBytes, readVarint_writeVarint hlen, Option.bind_some]
  dsimp only
  rw [if_pos (by simp), List.take_left, List.drop_left]

/-- **A field is read as it was written.** -/
theorem readField_writeField (limit : Nat) {f : Field} (hf : f.Written) (r : List UInt8) :
    readField limit (writeField f ++ r) = some (f, r) := by
  obtain ⟨number, payload⟩ := f
  obtain ⟨hnumber, hpayload⟩ := hf
  cases payload with
  | varint w =>
    rw [writeField, List.append_assoc, readField, readKey_writeKey hnumber (by decide),
      Option.bind_some]
    dsimp only
    rw [if_neg (by decide), readFlat, readVarint_writeVarint w.toNat_lt]
    simp
  | bytes bs =>
    rw [writeField, List.append_assoc, List.append_assoc, readField,
      readKey_writeKey hnumber (by decide), Option.bind_some]
    dsimp only
    rw [if_neg (by decide), readFlat, readBytes_written hpayload]
    rfl
  | eight | four | group => exact hpayload.elim

theorem writeField_ne_nil {f : Field} (hf : f.Written) : writeField f ≠ [] := by
  intro hnil
  have hread := readField_writeField 0 hf []
  rw [hnil, List.append_nil, readField, readKey, readVarint, readVarintFrom] at hread
  cases hread

/-- **Fields are read as they were written.** -/
theorem readFields_writeFields (limit : Nat) {fs : List Field} (hfs : ∀ f ∈ fs, f.Written) :
    readFields limit (writeFields fs) = some fs := by
  induction fs with
  | nil => rw [writeFields, List.flatMap_nil, readFields.eq_def]; rfl
  | cons f fs ih =>
    have hf := hfs f List.mem_cons_self
    have hread := readField_writeField limit hf (writeFields fs)
    have hne : (writeField f ++ writeFields fs).isEmpty = false := by
      simp [writeField_ne_nil hf]
    rw [writeFields, List.flatMap_cons, ← writeFields, readFields.eq_def, hne, if_neg (by decide)]
    split
    · rename_i hnone
      rw [hread] at hnone
      cases hnone
    · rename_i hsome
      rw [hread] at hsome
      cases hsome
      rw [ih fun g hg => hfs g (List.mem_cons_of_mem f hg)]
      rfl

/-! ## Lengths -/

/-- What a field holds is not longer than the message. -/
theorem length_le_writeFields {fs : List Field} {number : Nat} {bs : List UInt8}
    (h : ⟨number, .bytes bs⟩ ∈ fs) : bs.length ≤ (writeFields fs).length := by
  obtain ⟨before, after, rfl⟩ := List.append_of_mem h
  simp only [writeFields, List.flatMap_append, List.flatMap_cons, writeField, List.length_append]
  omega

end Interpose.Wire
