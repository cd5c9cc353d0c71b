/-
Interpose.Wire.Field — messages as lists of numbered fields.

On the wire a message is a sequence of fields, each with a number and a
payload in one of six forms. Nothing in the bytes says what a number means
or how long the message is: that is up to who reads it. Groups, the one
form that nests, are not used by any message here; they are passed over,
as far as they nest no deeper than the limit.
-/
import Interpose.Wire.Varint

namespace Interpose.Wire

inductive Payload where
  | varint (w : UInt64)
  | bytes (bs : List UInt8)
  /-- Eight bytes of no known meaning. -/
  | eight
  /-- Four bytes of no known meaning. -/
  | four
  /-- A group that has been passed over. -/
  | group
  deriving DecidableEq, Repr

structure Field where
  number : Nat
  payload : Payload
  deriving DecidableEq, Repr

/-! ## Writing -/

def writeKey (number form : Nat) : List UInt8 := writeVarint (8 * number + form)

/-- The bytes of a field. Only numbers and byte strings are ever written. -/
def writeField (f : Field) : List UInt8 :=
  match f.payload with
  | .varint w => writeKey f.number 0 ++ writeVarint w.toNat
  | .bytes bs => writeKey f.number 2 ++ writeVarint bs.length ++ bs
  | .eight | .four | .group => []

def writeFields (fs : List Field) : List UInt8 := fs.flatMap writeField

/-! ## Reading -/

/-- Reads the number and the form of a field. Keys fit into 32 bits and
numbers start at one. -/
def readKey (bs : List UInt8) : Option (Nat × Nat × List UInt8) :=
  (readVarint bs).bind fun (key, r) =>
    if key < UInt32.size ∧ 0 < key / 8 then some (key / 8, key % 8, r) else none

/-- Drops so many bytes, if there are so many. -/
def dropExactly (n : Nat) (bs : List UInt8) : Option (List UInt8) :=
  if n ≤ bs.length then some (bs.drop n) else none

/-- Reads so many bytes as their own number says. -/
def readBytes (bs : List UInt8) : Option (List UInt8 × List UInt8) :=
  (readVarint bs).bind fun (n, r) =>
    if n ≤ r.length then some (r.take n, r.drop n) else none

/-- Reads a payload of a form that does not nest. -/
def readFlat (form : Nat) (bs : List UInt8) : Option (Payload × List UInt8) :=
  match form with
  | 0 => (readVarint bs).map fun (n, r) => (.varint (UInt64.ofNat n), r)
  | 1 => (dropExactly 8 bs).map fun r => (.eight, r)
  | 2 => (readBytes bs).map fun (s, r) => (.bytes s, r)
  | 5 => (dropExactly 4 bs).map fun r => (.four, r)
  | _ => none

/-! ## What is left is no longer -/

theorem length_readKey {bs r : List UInt8} {number form : Nat}
    (h : readKey bs = some (number, form, r)) : r.length < bs.length := by
  simp only [readKey, Option.bind_eq_some_iff] at h
  obtain ⟨⟨key, r'⟩, hv, h⟩ := h
  split at h
  · simp only [Option.some.injEq, Prod.mk.injEq] at h
    have := length_readVarint hv
    simp only [← h.2.2, this]
  · simp at h

theorem length_dropExactly {n : Nat} {bs r : List UInt8} (h : dropExactly n bs = some r) :
    r.length ≤ bs.length := by
  simp only [dropExactly] at h
  split at h
  · simp only [Option.some.injEq] at h
    simp [← h]
  · simp at h

theorem length_readBytes {bs s r : List UInt8} (h : readBytes bs = some (s, r)) :
    r.length ≤ bs.length := by
  simp only [readBytes, Option.bind_eq_some_iff] at h
  obtain ⟨⟨n, r'⟩, hv, h⟩ := h
  split at h
  · simp only [Option.some.injEq, Prod.mk.injEq] at h
    have := length_readVarint hv
    simp only [← h.2, List.length_drop]
    omega
  · simp at h

theorem length_readFlat {form : Nat} {bs r : List UInt8} {p : Payload}
    (h : readFlat form bs = some (p, r)) : r.length ≤ bs.length := by
  unfold readFlat at h
  split at h
  · simp only [Option.map_eq_some_iff, Prod.mk.injEq] at h
    obtain ⟨⟨n, r'⟩, hv, -, rfl⟩ := h
    exact Nat.le_of_lt (length_readVarint hv)
  · simp only [Option.map_eq_some_iff, Prod.mk.injEq] at h
    obtain ⟨r', hd, -, rfl⟩ := h
    exact length_dropExactly hd
  · simp only [Option.map_eq_some_iff, Prod.mk.injEq] at h
    obtain ⟨⟨s, r'⟩, hv, -, rfl⟩ := h
    exact length_readBytes hv
  · simp only [Option.map_eq_some_iff, Prod.mk.injEq] at h
    obtain ⟨r', hd, -, rfl⟩ := h
    exact length_dropExactly hd
  · simp at h

/-! ## Groups and messages -/

/-- Passes over the rest of the groups that are open, innermost first. With
`limit` groups open there may be nothing but their ends. -/
def skipGroups (limit : Nat) (opened : List Nat) (bs : List UInt8) : Option (List UInt8) :=
  match opened with
  | [] => some bs
  | number :: outer =>
    match _hk : readKey bs with
    | none => none
    | some (n, form, r) =>
      if form = 4 then
        if n = number then skipGroups limit outer r else none
      else if limit ≤ opened.length then none
      else if form = 3 then skipGroups limit (n :: opened) r
      else
        match _hf : readFlat form r with
        | none => none
        | some (_, r') => skipGroups limit opened r'
termination_by bs.length
decreasing_by
  · exact length_readKey _hk
  · exact length_readKey _hk
  · exact Nat.lt_of_le_of_lt (length_readFlat _hf) (length_readKey _hk)

theorem length_skipGroups {limit : Nat} {opened : List Nat} {bs r : List UInt8}
    (h : skipGroups limit opened bs = some r) : r.length ≤ bs.length := by
  induction hn : bs.length using Nat.strongRecOn generalizing opened bs with
  | ind n ih =>
    subst hn
    rw [skipGroups.eq_def] at h
    split at h
    · simp_all
    · split at h
      · simp at h
      · rename_i hk
        have hk := length_readKey hk
        split at h
        · split at h
          · have := ih _ hk h rfl
            omega
          · simp at h
        · split at h
          · simp at h
          · split at h
            · have := ih _ hk h rfl
              omega
            · split at h
              · simp at h
              · rename_i hf
                have hf := length_readFlat hf
                have := ih _ (Nat.lt_of_le_of_lt hf hk) h rfl
                omega

/-- Reads one field. -/
def readField (limit : Nat) (bs : List UInt8) : Option (Field × List UInt8) :=
  (readKey bs).bind fun (number, form, r) =>
    if form = 3 then
      if limit = 0 then none
      else (skipGroups limit [number] r).map fun r => ({ number, payload := .group }, r)
    else (readFlat form r).map fun (payload, r) => ({ number, payload }, r)

theorem length_readField {limit : Nat} {bs r : List UInt8} {f : Field}
    (h : readField limit bs = some (f, r)) : r.length < bs.length := by
  simp only [readField, Option.bind_eq_some_iff] at h
  obtain ⟨⟨number, form, r'⟩, hk, h⟩ := h
  have := length_readKey hk
  split at h
  · split at h
    · simp at h
    · simp only [Option.map_eq_some_iff, Prod.mk.injEq] at h
      obtain ⟨r'', hs, -, rfl⟩ := h
      exact Nat.lt_of_le_of_lt (length_skipGroups hs) this
  · simp only [Option.map_eq_some_iff, Prod.mk.injEq] at h
    obtain ⟨⟨p, r''⟩, hf, -, rfl⟩ := h
    exact Nat.lt_of_le_of_lt (length_readFlat hf) this

/-- Reads fields to the end. -/
def readFields (limit : Nat) (bs : List UInt8) : Option (List Field) :=
  if bs.isEmpty then some []
  else
    match _h : readField limit bs with
    | none => none
    | some (f, r) => (readFields limit r).map (f :: ·)
termination_by bs.length
decreasing_by exact length_readField _h

end Interpose.Wire
