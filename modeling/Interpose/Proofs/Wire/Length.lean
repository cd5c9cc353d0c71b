/-
Interpose.Proofs.Wire.Length — nothing is read from fewer bytes than it is written in.

A number takes as many bytes as it has digits to the base 128
(`length_writeVarint_le`), and whoever reads it has read at least that many:
needless bytes may have come with it, but none can be missing. The same goes
for fields and lists of fields.

Main statement: `length_readFields_le`.
-/
import Interpose.Wire.Field

namespace Interpose.Wire

/-! ## Numbers -/

theorem length_writeVarint_pos (n : Nat) : 0 < (writeVarint n).length := by
  rw [writeVarint]
  split <;> exact Nat.succ_pos _

/-- The bytes of a number are its digits to the base 128. -/
theorem length_writeVarint_le {n k : Nat} :
    (writeVarint n).length ≤ k + 1 ↔ n < Nat.pow 128 (k + 1) := by
  show _ ↔ n < 128 ^ (k + 1)
  induction k generalizing n with
  | zero =>
    have hpos := length_writeVarint_pos (n / 128)
    rw [writeVarint]
    split
    next h => simpa using h
    next h => simp only [List.length_cons]; omega
  | succ k ih =>
    rw [writeVarint]
    split
    next h =>
      have hpow : 128 ^ 1 ≤ 128 ^ (k + 1 + 1) := Nat.pow_le_pow_right (by decide) (by omega)
      simp only [List.length_singleton]
      omega
    next =>
      rw [List.length_cons, Nat.add_le_add_iff_right, ih, Nat.div_lt_iff_lt_mul (by decide),
        ← Nat.pow_succ]

theorem lt_pow_length_writeVarint (n : Nat) : n < Nat.pow 128 (writeVarint n).length := by
  obtain ⟨k, hk⟩ := Nat.exists_eq_add_one.mpr (length_writeVarint_pos n)
  rw [hk]
  exact length_writeVarint_le.mp (Nat.le_of_eq hk)

theorem length_writeVarint_le_of_lt {n k : Nat} (hk : 0 < k) (h : n < Nat.pow 128 k) :
    (writeVarint n).length ≤ k := by
  cases k with
  | zero => exact absurd hk (Nat.lt_irrefl 0)
  | succ k => exact length_writeVarint_le.mpr h

theorem length_writeVarint_mono {n m : Nat} (h : n ≤ m) :
    (writeVarint n).length ≤ (writeVarint m).length :=
  length_writeVarint_le_of_lt (length_writeVarint_pos m)
    (Nat.lt_of_le_of_lt h (lt_pow_length_writeVarint m))

/-- A sum takes no more bytes than its parts do together. -/
theorem length_writeVarint_add (n m : Nat) :
    (writeVarint (n + m)).length ≤ (writeVarint n).length + (writeVarint m).length := by
  have hn := length_writeVarint_pos n
  have hm := length_writeVarint_pos m
  have hpow : ∀ {k : Nat}, 0 < k → 2 ≤ 128 ^ k := fun hk =>
    Nat.le_trans (by decide) (Nat.pow_le_pow_right (by decide) hk : 128 ^ 1 ≤ 128 ^ _)
  have hn' : n < 128 ^ (writeVarint n).length := lt_pow_length_writeVarint n
  have hm' : m < 128 ^ (writeVarint m).length := lt_pow_length_writeVarint m
  refine length_writeVarint_le_of_lt (by omega) ?_
  show n + m < 128 ^ _
  rw [Nat.pow_add]
  exact Nat.lt_of_lt_of_le (Nat.add_lt_add hn' hm') (Nat.add_le_mul (hpow hn) (hpow hm))

theorem readVarintFrom_lt {count acc n : Nat} {bs r : List UInt8} (hacc : acc < Nat.pow 128 count)
    (h : readVarintFrom count acc bs = some (n, r)) :
    n < Nat.pow 128 (count + (bs.length - r.length)) := by
  replace hacc : acc < 128 ^ count := hacc
  show n < 128 ^ _
  induction bs generalizing count acc with
  | nil => cases h
  | cons b bs ih =>
    have hplace : Nat.pow 128 count = 128 ^ count := rfl
    rw [readVarintFrom, hplace] at h
    split at h
    next hlast =>
      split at h
      next => cases h
      next =>
        cases h
        rw [List.length_cons, Nat.add_sub_cancel_left, Nat.pow_succ']
        have : (b.toNat + 1) * 128 ^ count ≤ 128 * 128 ^ count := Nat.mul_le_mul_right _ hlast
        rw [Nat.succ_mul] at this
        omega
    next hmore =>
      split at h
      next => cases h
      next =>
        have hless := length_readVarintFrom h
        have hb := b.toNat_lt
        have hacc' : acc + (b.toNat - 128) * 128 ^ count < 128 ^ (count + 1) := by
          rw [Nat.pow_succ']
          have : (b.toNat - 128 + 1) * 128 ^ count ≤ 128 * 128 ^ count :=
            Nat.mul_le_mul_right _ (by omega)
          rw [Nat.succ_mul] at this
          omega
        have hn := ih h hacc'
        rwa [show count + 1 + (bs.length - r.length) = count + ((b :: bs).length - r.length) by
          rw [List.length_cons]; omega] at hn

/-- **A number is read from no fewer bytes than it is written in.** -/
theorem length_readVarint_le {n : Nat} {bs r : List UInt8} (h : readVarint bs = some (n, r)) :
    (writeVarint n).length + r.length ≤ bs.length := by
  have hless := length_readVarint h
  have hn : n < Nat.pow 128 (0 + (bs.length - r.length)) :=
    readVarintFrom_lt (by decide : 0 < Nat.pow 128 0) h
  rw [Nat.zero_add] at hn
  have := length_writeVarint_le_of_lt (by omega) hn
  omega

/-! ## Fields -/

theorem length_readKey_le {bs r : List UInt8} {number form : Nat}
    (h : readKey bs = some (number, form, r)) :
    (writeKey number form).length + r.length ≤ bs.length := by
  obtain ⟨⟨key, r'⟩, hkey, h⟩ := Option.bind_eq_some_iff.mp h
  dsimp only at h
  split at h
  next =>
    cases h
    rw [writeKey, Nat.div_add_mod]
    exact length_readVarint_le hkey
  next => cases h

/-- A payload and the key before it are read from no fewer bytes than they are written in. -/
theorem length_readFlat_le {number form : Nat} {bs r : List UInt8} {p : Payload}
    (h : readFlat form bs = some (p, r)) :
    (writeField ⟨number, p⟩).length + r.length ≤ (writeKey number form).length + bs.length := by
  have hskipped := length_readFlat h
  unfold readFlat at h
  split at h
  next =>
    obtain ⟨⟨n, r'⟩, hn, hp⟩ := Option.map_eq_some_iff.mp h
    cases hp
    have hword : (UInt64.ofNat n).toNat ≤ n := by
      rw [UInt64.toNat_ofNat']
      exact Nat.mod_le ..
    have hlength := length_readVarint_le hn
    have hmono := length_writeVarint_mono hword
    simp only [writeField, List.length_append]
    omega
  next =>
    obtain ⟨_, -, hp⟩ := Option.map_eq_some_iff.mp h
    cases hp
    rw [writeField, List.length_nil]
    omega
  next =>
    obtain ⟨⟨s, r'⟩, hs, hp⟩ := Option.map_eq_some_iff.mp h
    cases hp
    obtain ⟨⟨n, rest⟩, hn, hs⟩ := Option.bind_eq_some_iff.mp hs
    have hlength := length_readVarint_le hn
    dsimp only at hs
    split at hs
    next hle =>
      cases hs
      simp only [writeField, List.length_append, List.length_take, List.length_drop,
        Nat.min_eq_left hle]
      omega
    next => cases hs
  next =>
    obtain ⟨_, -, hp⟩ := Option.map_eq_some_iff.mp h
    cases hp
    rw [writeField, List.length_nil]
    omega
  next => cases h

/-- **A field is read from no fewer bytes than it is written in.** -/
theorem length_readField_le {limit : Nat} {bs r : List UInt8} {f : Field}
    (h : readField limit bs = some (f, r)) : (writeField f).length + r.length ≤ bs.length := by
  have hless := length_readField h
  obtain ⟨⟨number, form, r'⟩, hkey, h⟩ := Option.bind_eq_some_iff.mp h
  have hkey := length_readKey_le hkey
  dsimp only at h
  split at h
  next =>
    split at h
    next => cases h
    next =>
      obtain ⟨r'', -, hf⟩ := Option.map_eq_some_iff.mp h
      cases hf
      rw [writeField, List.length_nil]
      omega
  next =>
    obtain ⟨⟨p, r''⟩, hflat, hf⟩ := Option.map_eq_some_iff.mp h
    cases hf
    exact Nat.le_trans (length_readFlat_le hflat) hkey

/-- **A message is read from no fewer bytes than its fields are written in.** -/
theorem length_readFields_le {limit : Nat} {bs : List UInt8} {fs : List Field}
    (h : readFields limit bs = some fs) : (writeFields fs).length ≤ bs.length := by
  fun_induction readFields limit bs generalizing fs with
  | case1 =>
    cases h
    exact Nat.zero_le _
  | case2 => cases h
  | case3 bs _ f r hf ih =>
    obtain ⟨fs', hfs, rfl⟩ := Option.map_eq_some_iff.mp h
    have hfirst := length_readField_le hf
    have hothers := ih hfs
    rw [writeFields, List.flatMap_cons, ← writeFields, List.length_append]
    omega

end Interpose.Wire
