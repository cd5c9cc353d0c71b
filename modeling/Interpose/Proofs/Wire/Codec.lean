/-
Interpose.Proofs.Wire.Codec — records that were encoded are decoded as they were.

Decoding begins with the empty record and takes one field after another
into it. What a field of a codec wrote, it takes back (`scalar_takes` to
`messages_takes`), and so the fields together turn the empty record into
the one that was written: `Chain` names the records in between, and
`mergeBytes_encode` turns a chain into a statement about bytes.

A codec is `Faithful` when this holds of all its records that are not too
long to tell their length, as far as messages may nest.

Main statement: `Codec.mergeBytes_encode`.
-/
import Interpose.Wire.Codec
import Interpose.Proofs.Text.Bytes
import Interpose.Proofs.Wire.Field

namespace Interpose.Wire

variable {α β σ : Type}

/-! ## Codecs -/

/-- A field that writes nothing but numbers and byte strings. -/
def FieldCodec.Writes (f : FieldCodec α) : Prop :=
  ∀ a, ∀ p ∈ f.write a, (∃ w, p = .varint w) ∨ ∃ bs, p = .bytes bs

/-- The fields of a codec have numbers of their own, and write what can be written. -/
structure Codec.WellFormed (c : Codec α) : Prop where
  distinct : (c.fields.map (·.number)).Nodup
  numbers : ∀ f ∈ c.fields, IsNumber f.number
  writes : ∀ f ∈ c.fields, f.Writes

theorem Codec.WellFormed.of_numbers {c : Codec α}
    (hnumbers : (c.fields.map (·.number)).Nodup ∧ ∀ n ∈ c.fields.map (·.number), IsNumber n)
    (hwrites : ∀ f ∈ c.fields, f.Writes) : c.WellFormed where
  distinct := hnumbers.1
  numbers _ hf := hnumbers.2 _ (List.mem_map_of_mem hf)
  writes := hwrites

/-- What a field wrote of one record turns a second record into a third, if it is
not too long to tell its length. -/
def FieldCodec.Takes (f : FieldCodec α) (limit : Nat) (a r r' : α) : Prop :=
  (∀ bs, .bytes bs ∈ f.write a → bs.length < UInt64.size) →
    (f.write a).foldlM (f.merge limit) r = some r'

/-- What some fields wrote of a record turns a second record into a third. -/
inductive Chain (limit : Nat) (a : α) : List (FieldCodec α) → α → α → Prop
  | nil {r : α} : Chain limit a [] r r
  | cons {f : FieldCodec α} {fs : List (FieldCodec α)} {r r₁ r' : α}
      (first : f.Takes limit a r r₁) (others : Chain limit a fs r₁ r') :
      Chain limit a (f :: fs) r r'

namespace Codec

variable {c : Codec α}

theorem mem_toFields {a : α} {x : Field} :
    x ∈ c.toFields a ↔ ∃ f ∈ c.fields, ∃ p ∈ f.write a, x = ⟨f.number, p⟩ := by
  simp only [toFields, List.mem_flatMap, List.mem_map, eq_comm]

/-- A field is found by its number. -/
theorem find?_number (hc : c.WellFormed) {f : FieldCodec α} (hf : f ∈ c.fields) :
    c.fields.find? (·.number == f.number) = some f := by
  have hdistinct := hc.distinct
  revert hdistinct hf
  generalize c.fields = fs
  intro hf hdistinct
  induction fs with
  | nil => exact absurd hf List.not_mem_nil
  | cons g fs ih =>
    obtain ⟨hg, hfs⟩ := List.nodup_cons.mp hdistinct
    rcases List.mem_cons.mp hf with rfl | hf
    · simp
    · have hne : g.number ≠ f.number := fun heq => hg (List.mem_map.mpr ⟨f, hf, heq.symm⟩)
      rw [List.find?_cons_of_neg (by simpa using hne)]
      exact ih hf hfs

/-- What a field holds is not longer than the message. -/
theorem length_le_encode {a : α} {f : FieldCodec α} {bs : List UInt8} (hf : f ∈ c.fields)
    (hbs : .bytes bs ∈ f.write a) : bs.length ≤ (c.encode a).length :=
  length_le_writeFields (mem_toFields.mpr ⟨f, hf, _, hbs, rfl⟩)

/-- **The fields that were written of a record make that record**, if what
each of them wrote does. -/
theorem mergeBytes_encode (hc : c.WellFormed) {limit : Nat} {a r r' : α}
    (hsize : (c.encode a).length < UInt64.size) (hchain : Chain limit a c.fields r r') :
    c.mergeBytes limit r (c.encode a) = some r' := by
  have hshort : ∀ f ∈ c.fields, ∀ bs, .bytes bs ∈ f.write a → bs.length < UInt64.size :=
    fun f hf bs hbs => Nat.lt_of_le_of_lt (length_le_encode hf hbs) hsize
  have hwritten : ∀ x ∈ c.toFields a, x.Written := by
    intro x hx
    obtain ⟨f, hf, p, hp, rfl⟩ := mem_toFields.mp hx
    refine ⟨hc.numbers f hf, ?_⟩
    rcases hc.writes f hf a p hp with ⟨w, rfl⟩ | ⟨bs, rfl⟩
    · trivial
    · exact hshort f hf bs hp
  have hfold : ∀ {fs : List (FieldCodec α)} {r r' : α}, (∀ f ∈ fs, f ∈ c.fields) →
      Chain limit a fs r r' →
      (fs.flatMap fun f => (f.write a).map (Field.mk f.number)).foldlM (c.mergeField limit) r
        = some r' := by
    intro fs r r' hfs hchain
    induction hchain with
    | nil => rfl
    | @cons f fs r r₁ r' first others ih =>
      have hmerge : ∀ p r, c.mergeField limit r ⟨f.number, p⟩ = f.merge limit r p := by
        intro p r
        rw [mergeField, find?_number hc (hfs f List.mem_cons_self)]
      have hone : ((f.write a).map (Field.mk f.number)).foldlM (c.mergeField limit) r
          = some r₁ := by
        rw [List.foldlM_map]
        simp only [hmerge]
        exact first (hshort f (hfs f List.mem_cons_self))
      rw [List.flatMap_cons, List.foldlM_append, hone]
      exact ih fun g hg => hfs g (List.mem_cons_of_mem f hg)
  rw [mergeBytes, encode, readFields_writeFields limit hwritten, Option.bind_some]
  exact hfold (fun _ hf => hf) hchain

/-- Every record that is not too long is decoded as it was encoded, where
messages may nest this deep. -/
def Faithful (c : Codec α) (depth : Nat) : Prop :=
  ∀ limit, depth ≤ limit → ∀ a, (c.encode a).length < UInt64.size →
    c.mergeBytes limit c.empty (c.encode a) = some a

theorem Faithful.of_chain {depth : Nat} (hc : c.WellFormed)
    (h : ∀ limit, depth ≤ limit → ∀ a, Chain limit a c.fields c.empty a) : c.Faithful depth :=
  fun limit hlimit a hsize => mergeBytes_encode hc hsize (h limit hlimit a)

/-- **What was encoded is decoded as it was.** -/
theorem Faithful.decode_encode {depth : Nat} (hc : c.Faithful depth) (hdepth : depth ≤ nesting)
    {a : α} (hsize : (c.encode a).length < UInt64.size) : c.decode (c.encode a) = some a :=
  hc nesting hdepth a hsize

end Codec

/-! ## Scalars -/

/-- Every value is read from the word it is written in. -/
def Scalar.Faithful (s : Scalar σ) : Prop := ∀ x, s.ofWord (s.toWord x) = x

namespace Scalar

theorem bool_faithful : bool.Faithful := by
  intro b
  cases b <;> rfl

theorem uint32_faithful : uint32.Faithful := fun n => by
  show n.toUInt64.toUInt32 = n
  simp

theorem uint64_faithful : uint64.Faithful := fun _ => rfl

theorem int32_faithful : int32.Faithful := fun n => by
  apply Int32.toBitVec_inj.mp
  -- of a word with its sign in all 64 bits, 32 are kept, as in coming back from `Int64`
  show (n.toInt64.toBitVec).setWidth 32 = n.toBitVec
  rw [← BitVec.signExtend_eq_setWidth_of_le _ (by decide)]
  exact congrArg Int32.toBitVec n.toInt32_toInt64

theorem int64_faithful : int64.Faithful := fun n => by
  show n.toUInt64.toInt64 = n
  simp

end Scalar

/-! ## Fields -/

namespace FieldCodec

variable {number limit : Nat} {a r r' : α}

/-! ### Scalars and texts -/

section Scalars

variable [DecidableEq σ] {s : Scalar σ} {get : α → σ} {set : α → σ → α}

@[simp] theorem scalar_writes : (scalar number s get set).Writes := by
  intro a p hp
  simp only [scalar] at hp
  split at hp
  · exact absurd hp List.not_mem_nil
  · exact .inl ⟨_, List.mem_singleton.mp hp⟩

/-- A scalar replaces the one in the record, which is zero where none was written. -/
theorem scalar_takes (hs : s.Faithful) (hzero : set r s.zero = r) :
    (scalar number s get set).Takes limit a r (set r (get a)) := by
  intro _
  simp only [scalar]
  split
  · rename_i hget
    rw [hget, hzero]
    rfl
  · show some (set r (s.ofWord (s.toWord (get a)))) = _
    rw [hs]

end Scalars

section Optional

variable {s : Scalar σ} {get : α → Option σ} {set : α → σ → α}

@[simp] theorem optional_writes : (optional number s get set).Writes := by
  intro a p hp
  simp only [optional, Option.mem_toList, Option.map_eq_some_iff] at hp
  obtain ⟨x, _, rfl⟩ := hp
  exact .inl ⟨_, rfl⟩

theorem optional_takes (hs : s.Faithful) :
    (optional number s get set).Takes limit a r ((get a).elim r (set r)) := by
  intro _
  simp only [optional]
  cases get a with
  | none => rfl
  | some x =>
    show some (set r (s.ofWord (s.toWord x))) = _
    rw [hs]
    rfl

end Optional

section Texts

theorem bytesText?_textBytes (s : String) : bytesText? (textBytes s) = some s :=
  Text.fromUTF8?_toUTF8 s

@[simp] theorem text_writes {get : α → String} {set : α → String → α} :
    (text number get set).Writes := by
  intro a p hp
  simp only [text] at hp
  split at hp
  · exact absurd hp List.not_mem_nil
  · exact .inr ⟨_, List.mem_singleton.mp hp⟩

theorem text_takes {get : α → String} {set : α → String → α} (hempty : set r "" = r) :
    (text number get set).Takes limit a r (set r (get a)) := by
  intro _
  simp only [text]
  split
  · rename_i hget
    rw [hget, hempty]
    rfl
  · show (bytesText? (textBytes (get a))).map (set r) >>= pure = _
    rw [bytesText?_textBytes]
    rfl

end Texts

/-! ### Lists and messages -/

/-- A list grows by what was written of another, one part after the other. -/
theorem foldlM_grow {get : α → List β} {set : α → List β → α} {step : α → β → Option α}
    {bs : List β} (hget : ∀ r bs, get (set r bs) = bs)
    (hset : ∀ r bs bs', set (set r bs) bs' = set r bs') (hsame : set r (get r) = r)
    (hstep : ∀ r, ∀ b ∈ bs, step r b = some (set r (get r ++ [b]))) :
    bs.foldlM step r = some (set r (get r ++ bs)) := by
  induction bs generalizing r with
  | nil =>
    rw [List.append_nil, hsame]
    rfl
  | cons b bs ih =>
    rw [List.foldlM_cons, hstep r b List.mem_cons_self]
    show bs.foldlM step (set r (get r ++ [b])) = _
    rw [ih (by rw [hget, hset]) fun r b hb => hstep r b (List.mem_cons_of_mem _ hb), hget, hset,
      List.append_assoc, List.singleton_append]

@[simp] theorem texts_writes {get : α → List String} {set : α → List String → α} :
    (texts number get set).Writes := by
  intro a p hp
  simp only [texts, List.mem_map] at hp
  obtain ⟨s, _, rfl⟩ := hp
  exact .inr ⟨_, rfl⟩

theorem texts_takes {get : α → List String} {set : α → List String → α}
    (hget : ∀ r bs, get (set r bs) = bs) (hset : ∀ r bs bs', set (set r bs) bs' = set r bs')
    (hsame : set r (get r) = r) :
    (texts number get set).Takes limit a r (set r (get r ++ get a)) := by
  intro _
  simp only [texts]
  rw [List.foldlM_map]
  refine foldlM_grow hget hset hsame fun r s _ => ?_
  show (bytesText? (textBytes s)).map (fun s => set r (get r ++ [s])) = _
  rw [bytesText?_textBytes]
  rfl

section Messages

variable {c : Codec β} {depth : Nat}

@[simp] theorem message_writes {get : α → Option β} {set : α → β → α} :
    (message number c get set).Writes := by
  intro a p hp
  simp only [message, Option.mem_toList, Option.map_eq_some_iff] at hp
  obtain ⟨b, _, rfl⟩ := hp
  exact .inr ⟨_, rfl⟩

/-- A message is taken in as it was written where there was none before. -/
theorem message_takes {get : α → Option β} {set : α → β → α} (hc : c.Faithful depth)
    (hdepth : depth < limit) (hnone : get r = none) :
    (message number c get set).Takes limit a r ((get a).elim r (set r)) := by
  intro hshort
  simp only [message] at hshort ⊢
  cases hget : get a with
  | none => rfl
  | some b =>
    have hsize : (c.encode b).length < UInt64.size := hshort _ (by simp [hget])
    show (if limit = 0 then none
      else (c.mergeBytes (limit - 1) ((get r).getD c.empty) (c.encode b)).map (set r)) >>= pure = _
    rw [if_neg (by omega), hnone, Option.getD_none, hc (limit - 1) (by omega) b hsize]
    rfl

@[simp] theorem messages_writes {get : α → List β} {set : α → List β → α} :
    (messages number c get set).Writes := by
  intro a p hp
  simp only [messages, List.mem_map] at hp
  obtain ⟨b, _, rfl⟩ := hp
  exact .inr ⟨_, rfl⟩

theorem messages_takes {get : α → List β} {set : α → List β → α} (hc : c.Faithful depth)
    (hdepth : depth < limit) (hget : ∀ r bs, get (set r bs) = bs)
    (hset : ∀ r bs bs', set (set r bs) bs' = set r bs') (hsame : set r (get r) = r) :
    (messages number c get set).Takes limit a r (set r (get r ++ get a)) := by
  intro hshort
  simp only [messages] at hshort ⊢
  rw [List.foldlM_map]
  refine foldlM_grow hget hset hsame fun r b hb => ?_
  show (if limit = 0 then none
    else (c.mergeBytes (limit - 1) c.empty (c.encode b)).map fun b => set r (get r ++ [b])) = _
  rw [if_neg (by omega), hc (limit - 1) (by omega) b (hshort _ (List.mem_map_of_mem hb))]
  rfl

end Messages

end FieldCodec

end Interpose.Wire
