/-
Interpose.Proofs.Wire.Growth — what was decoded is at most twice as long as what came.

Who else writes need not write as it is done here. A number may come in five
bytes and go out in ten, because the word it came in had no sign
(`Scalar.int32_grows`); and what grows inside a message may take another byte
to tell its length. But every field that is taken in makes the record longer
by twice its own bytes at most (`scalar_grows` to `messages_grows`), and so
do all of them together.

Main statement: `Codec.Grows.length_encode`.
-/
import Interpose.Proofs.Wire.Codec
import Interpose.Proofs.Wire.Length

namespace Interpose.Wire

variable {α β σ : Type}

theorem length_writeFields_append (xs ys : List Field) :
    (writeFields (xs ++ ys)).length = (writeFields xs).length + (writeFields ys).length := by
  rw [writeFields, List.flatMap_append, List.length_append, ← writeFields, ← writeFields]

/-- How many bytes a field takes of a record. -/
def FieldCodec.length (f : FieldCodec α) (a : α) : Nat :=
  (writeFields ((f.write a).map (Field.mk f.number))).length

namespace Codec

variable {c : Codec α} {f : FieldCodec α}

/-- The codec without the field of a number. -/
def without (c : Codec α) (number : Nat) : Codec α :=
  { c with fields := c.fields.filter (·.number != number) }

theorem length_encode (hc : c.WellFormed) (hf : f ∈ c.fields) (a : α) :
    (c.encode a).length = f.length a + ((c.without f.number).encode a).length := by
  have hdistinct := hc.distinct
  simp only [encode, toFields, without]
  revert hf hdistinct
  generalize c.fields = fs
  intro hf hdistinct
  induction fs with
  | nil => exact absurd hf List.not_mem_nil
  | cons g fs ih =>
    obtain ⟨hg, hfs⟩ := List.nodup_cons.mp hdistinct
    rw [List.flatMap_cons, length_writeFields_append]
    rcases List.mem_cons.mp hf with rfl | hf
    · have hothers : fs.filter (·.number != f.number) = fs :=
        List.filter_eq_self.mpr fun x hx =>
          bne_iff_ne.mpr fun heq => hg (List.mem_map.mpr ⟨x, hx, heq⟩)
      rw [List.filter_cons_of_neg (by simp), hothers, FieldCodec.length]
    · have hne : g.number ≠ f.number := fun heq => hg (List.mem_map.mpr ⟨f, hf, heq.symm⟩)
      rw [List.filter_cons_of_pos (by simpa using hne), List.flatMap_cons,
        length_writeFields_append, ih hf hfs]
      omega

/-- An empty record takes no bytes, and a record grows by twice the bytes that
are taken into it at most. -/
structure Grows (c : Codec α) : Prop where
  empty : c.encode c.empty = []
  mergeBytes : ∀ {limit : Nat} {r r' : α} {bs : List UInt8}, c.mergeBytes limit r bs = some r' →
    (c.encode r').length ≤ (c.encode r).length + 2 * bs.length

/-- To set the field of a number makes no other field longer. -/
def Spares (c : Codec α) (number : Nat) (set : α → σ → α) : Prop :=
  ∀ r x, ((c.without number).encode (set r x)).length ≤ ((c.without number).encode r).length

end Codec

/-- A record grows by twice the bytes of what is taken into one field at most. -/
structure FieldCodec.Grows (f : FieldCodec α) (c : Codec α) : Prop where
  own : ∀ {limit : Nat} {r r' : α} {p : Payload}, f.merge limit r p = some r' →
    f.length r' ≤ f.length r + 2 * (writeField ⟨f.number, p⟩).length
  others : ∀ {limit : Nat} {r r' : α} {p : Payload}, f.merge limit r p = some r' →
    ((c.without f.number).encode r').length ≤ ((c.without f.number).encode r).length

namespace Codec

variable {c : Codec α} {limit : Nat} {r r' : α} {bs : List UInt8}

theorem length_mergeField (hc : c.WellFormed) (hf : ∀ f ∈ c.fields, f.Grows c) {x : Field}
    (h : c.mergeField limit r x = some r') :
    (c.encode r').length ≤ (c.encode r).length + 2 * (writeField x).length := by
  rw [mergeField] at h
  split at h
  next f hfound =>
    have hmem := List.mem_of_find?_eq_some hfound
    have hnumber : f.number = x.number := by simpa using List.find?_some hfound
    have hothers := (hf f hmem).others h
    have hown : f.length r' ≤ f.length r + 2 * (writeField x).length := by
      have hown := (hf f hmem).own h
      rwa [hnumber] at hown
    rw [length_encode hc hmem, length_encode hc hmem r]
    omega
  next =>
    cases h
    omega

theorem length_foldlM_mergeField (hc : c.WellFormed) (hf : ∀ f ∈ c.fields, f.Grows c)
    {xs : List Field} (h : xs.foldlM (c.mergeField limit) r = some r') :
    (c.encode r').length ≤ (c.encode r).length + 2 * (writeFields xs).length := by
  induction xs generalizing r with
  | nil =>
    cases h
    omega
  | cons x xs ih =>
    rw [List.foldlM_cons] at h
    obtain ⟨r₁, hfirst, h⟩ := Option.bind_eq_some_iff.mp h
    have hfirst := length_mergeField hc hf hfirst
    have hothers := ih h
    rw [writeFields, List.flatMap_cons, ← writeFields, List.length_append]
    omega

/-- **A record grows by twice the bytes that are taken into it at most**, if this
holds of every field. -/
theorem Grows.of_fields (hc : c.WellFormed) (hempty : c.encode c.empty = [])
    (hf : ∀ f ∈ c.fields, f.Grows c) : c.Grows where
  empty := hempty
  mergeBytes h := by
    obtain ⟨xs, hxs, h⟩ := Option.bind_eq_some_iff.mp h
    have hread := length_readFields_le hxs
    have hgrown := length_foldlM_mergeField hc hf h
    omega

/-- **What is decoded takes twice the bytes that came at most.** -/
theorem Grows.length_encode {a : α} (hc : c.Grows) (h : c.decode bs = some a) :
    (c.encode a).length ≤ 2 * bs.length := by
  have hmerge := hc.mergeBytes h
  rwa [hc.empty, List.length_nil, Nat.zero_add] at hmerge

end Codec

/-! ## Scalars -/

/-- A value takes twice the bytes of any word it is read from at most. -/
def Scalar.Grows (s : Scalar σ) : Prop :=
  ∀ w, (writeVarint (s.toWord (s.ofWord w)).toNat).length ≤ 2 * (writeVarint w.toNat).length

namespace Scalar

/-- Whoever writes no larger word than was read needs no more bytes. -/
theorem Grows.of_le {s : Scalar σ} (h : ∀ w, (s.toWord (s.ofWord w)).toNat ≤ w.toNat) : s.Grows :=
  fun w => by
    have hmono := length_writeVarint_mono (h w)
    omega

theorem bool_grows : bool.Grows := fun w => by
  have hone : ∀ b : Bool, (bool.toWord b).toNat < Nat.pow 128 1 := by decide
  have hpos := length_writeVarint_pos w.toNat
  have hlength := length_writeVarint_le_of_lt Nat.one_pos (hone (bool.ofWord w))
  omega

theorem uint32_grows : uint32.Grows := .of_le fun w => by
  show w.toUInt32.toUInt64.toNat ≤ w.toNat
  rw [UInt32.toNat_toUInt64, UInt64.toNat_toUInt32]
  exact Nat.mod_le ..

theorem uint64_grows : uint64.Grows := .of_le fun _ => Nat.le_refl _

theorem int64_grows : int64.Grows := .of_le fun w => by
  show w.toInt64.toUInt64.toNat ≤ w.toNat
  simp

/-- A word that is read as a negative number has 32 bits at least, and so comes in
five bytes where it goes out in ten. -/
theorem int32_grows : int32.Grows := fun w => by
  by_cases hsmall : w.toNat < 128 ^ 4
  · have hmsb : (w.toBitVec.setWidth 32).msb = false := by
      rw [BitVec.msb_eq_false_iff_two_mul_lt, BitVec.toNat_setWidth]
      have : w.toBitVec.toNat = w.toNat := rfl
      omega
    have hle : (int32.toWord (int32.ofWord w)).toNat ≤ w.toNat := by
      show ((w.toBitVec.setWidth 32).signExtend 64).toNat ≤ w.toNat
      rw [BitVec.signExtend_eq_setWidth_of_msb_false hmsb, BitVec.toNat_setWidth,
        BitVec.toNat_setWidth]
      exact Nat.le_trans (Nat.mod_le ..) (Nat.mod_le ..)
    have hmono := length_writeVarint_mono hle
    omega
  · have hfive : ¬ (writeVarint w.toNat).length ≤ 3 + 1 := fun hle =>
      hsmall (length_writeVarint_le.mp hle)
    have hten := length_writeVarint_le_of_lt (k := 10) (by decide)
      (Nat.lt_trans (int32.toWord (int32.ofWord w)).toNat_lt (by decide))
    omega

end Scalar

/-! ## Fields -/

namespace FieldCodec

variable {c : Codec α} {f : FieldCodec α} {number : Nat}

theorem length_of_nil {a : α} (h : f.write a = []) : f.length a = 0 := by
  rw [length, h]
  rfl

theorem length_of_singleton {a : α} {p : Payload} (h : f.write a = [p]) :
    f.length a = (writeField ⟨f.number, p⟩).length := by
  rw [length, h, List.map_singleton, writeFields, List.flatMap_singleton]

theorem length_of_append {a r : α} {p : Payload} (h : f.write a = f.write r ++ [p]) :
    f.length a = f.length r + (writeField ⟨f.number, p⟩).length := by
  rw [length, h, List.map_append, length_writeFields_append, ← length, List.map_singleton]
  simp only [writeFields, List.flatMap_singleton]

/-- A field that only ever sets something, and grows no more than it may. -/
theorem Grows.of_set {set : α → σ → α} (hspares : c.Spares f.number set)
    (h : ∀ {limit : Nat} {r r' : α} {p : Payload}, f.merge limit r p = some r' →
      ∃ x, r' = set r x ∧
        f.length (set r x) ≤ f.length r + 2 * (writeField ⟨f.number, p⟩).length) :
    f.Grows c where
  own hmerge := by
    obtain ⟨x, rfl, hlength⟩ := h hmerge
    exact hlength
  others hmerge := by
    obtain ⟨x, rfl, -⟩ := h hmerge
    exact hspares _ x

/-! ### Scalars and texts -/

section Scalars

variable {s : Scalar σ} {set : α → σ → α}

theorem length_varint (hs : s.Grows) (w : UInt64) :
    (writeField ⟨number, .varint (s.toWord (s.ofWord w))⟩).length
      ≤ 2 * (writeField ⟨number, .varint w⟩).length := by
  have hw := hs w
  simp only [writeField, List.length_append]
  omega

theorem scalar_grows [DecidableEq σ] {get : α → σ} (hs : s.Grows)
    (hget : ∀ r x, get (set r x) = x) (hspares : c.Spares number set) :
    (scalar number s get set).Grows c := by
  refine .of_set hspares fun {limit r r' p} h => ?_
  cases p with
  | varint w =>
    cases h
    refine ⟨s.ofWord w, rfl, ?_⟩
    by_cases hzero : s.ofWord w = s.zero
    · rw [length_of_nil (by simp [scalar, hget, hzero])]
      exact Nat.zero_le _
    · rw [length_of_singleton (p := .varint (s.toWord (s.ofWord w)))
        (by simp [scalar, hget, hzero])]
      exact Nat.le_trans (length_varint hs w) (Nat.le_add_left ..)
  | _ => cases h

theorem optional_grows {get : α → Option σ} (hs : s.Grows)
    (hget : ∀ r x, get (set r x) = some x) (hspares : c.Spares number set) :
    (optional number s get set).Grows c := by
  refine .of_set hspares fun {limit r r' p} h => ?_
  cases p with
  | varint w =>
    cases h
    refine ⟨s.ofWord w, rfl, ?_⟩
    rw [length_of_singleton (p := .varint (s.toWord (s.ofWord w))) (by simp [optional, hget])]
    exact Nat.le_trans (length_varint hs w) (Nat.le_add_left ..)
  | _ => cases h

end Scalars

section Texts

theorem textBytes_of_bytesText? {bs : List UInt8} {s : String} (h : bytesText? bs = some s) :
    textBytes s = bs := Text.toUTF8_of_fromUTF8? h

theorem text_grows {get : α → String} {set : α → String → α}
    (hget : ∀ r x, get (set r x) = x) (hspares : c.Spares number set) :
    (text number get set).Grows c := by
  refine .of_set hspares fun {limit r r' p} h => ?_
  cases p with
  | bytes bs =>
    obtain ⟨s, hs, rfl⟩ := Option.map_eq_some_iff.mp h
    refine ⟨s, rfl, ?_⟩
    by_cases hempty : s = ""
    · rw [length_of_nil (by simp [text, hget, hempty])]
      exact Nat.zero_le _
    · rw [length_of_singleton (p := .bytes bs)
        (by simp [text, hget, hempty, textBytes_of_bytesText? hs])]
      omega
  | _ => cases h

theorem texts_grows {get : α → List String} {set : α → List String → α}
    (hget : ∀ r x, get (set r x) = x) (hspares : c.Spares number set) :
    (texts number get set).Grows c := by
  refine .of_set hspares fun {limit r r' p} h => ?_
  cases p with
  | bytes bs =>
    obtain ⟨s, hs, rfl⟩ := Option.map_eq_some_iff.mp h
    refine ⟨get r ++ [s], rfl, ?_⟩
    rw [length_of_append (r := r) (p := .bytes bs)
      (by simp [texts, hget, textBytes_of_bytesText? hs])]
    omega
  | _ => cases h

end Texts

/-! ### Messages -/

section Messages

variable {d : Codec β}

/-- What a message grows by, and what more its length takes to tell. -/
theorem length_bytes {s s' bs : List UInt8} (h : s'.length ≤ s.length + 2 * bs.length) :
    (writeField ⟨number, .bytes s'⟩).length
      ≤ (writeField ⟨number, .bytes s⟩).length + 2 * (writeField ⟨number, .bytes bs⟩).length := by
  have hmono := length_writeVarint_mono h
  have hsum := length_writeVarint_add s.length (2 * bs.length)
  have hdouble := length_writeVarint_add bs.length bs.length
  rw [← Nat.two_mul] at hdouble
  simp only [writeField, List.length_append]
  omega

theorem length_bytes_of_le {s bs : List UInt8} (h : s.length ≤ 2 * bs.length) :
    (writeField ⟨number, .bytes s⟩).length ≤ 2 * (writeField ⟨number, .bytes bs⟩).length := by
  have hmono := length_writeVarint_mono h
  have hdouble := length_writeVarint_add bs.length bs.length
  rw [← Nat.two_mul] at hdouble
  simp only [writeField, List.length_append]
  omega

/-- A message grows in its place, where it had been read before. -/
theorem message_grows {get : α → Option β} {set : α → β → α} (hd : d.Grows)
    (hget : ∀ r x, get (set r x) = some x) (hspares : c.Spares number set) :
    (message number d get set).Grows c := by
  refine .of_set hspares fun {limit r r' p} h => ?_
  cases p with
  | bytes bs =>
    simp only [message] at h
    split at h
    next => cases h
    next =>
      obtain ⟨b, hb, rfl⟩ := Option.map_eq_some_iff.mp h
      refine ⟨b, rfl, ?_⟩
      have hb := hd.mergeBytes hb
      rw [length_of_singleton (p := .bytes (d.encode b)) (by simp [message, hget])]
      cases hr : get r with
      | none =>
        rw [hr, Option.getD_none, hd.empty, List.length_nil, Nat.zero_add] at hb
        exact Nat.le_trans (length_bytes_of_le hb) (Nat.le_add_left ..)
      | some b₀ =>
        rw [hr, Option.getD_some] at hb
        rw [length_of_singleton (a := r) (p := .bytes (d.encode b₀)) (by simp [message, hr])]
        exact length_bytes hb
  | _ => cases h

theorem messages_grows {get : α → List β} {set : α → List β → α} (hd : d.Grows)
    (hget : ∀ r x, get (set r x) = x) (hspares : c.Spares number set) :
    (messages number d get set).Grows c := by
  refine .of_set hspares fun {limit r r' p} h => ?_
  cases p with
  | bytes bs =>
    simp only [messages] at h
    split at h
    next => cases h
    next =>
      obtain ⟨b, hb, rfl⟩ := Option.map_eq_some_iff.mp h
      refine ⟨get r ++ [b], rfl, ?_⟩
      have hb := hd.mergeBytes hb
      rw [hd.empty, List.length_nil, Nat.zero_add] at hb
      rw [length_of_append (r := r) (p := .bytes (d.encode b)) (by simp [messages, hget])]
      exact Nat.add_le_add_left (length_bytes_of_le hb) _
  | _ => cases h

end Messages

end FieldCodec

end Interpose.Wire
