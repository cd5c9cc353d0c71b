/-
Interpose.Proofs.Registry.Sealed — what the tag on a registry file is good for.

The reader does not check the tag against the bytes it has read. It writes
the document that it made of them down again, and checks against that. This
is no weaker: two documents are never written down alike
(`canonical_injective`), so a tag that fits what is written down anew fits
one document only, or two texts have one tag (`decode_eq_ok`).

Nothing is asked of the tags. Whatever function of key and text makes them,
a file that keeps the tag of a document is refused, or is read as that
document, or shows two texts that the function does not tell apart.

Main statement: `Store.tag_seals`.
-/
import Interpose.Proofs.Registry.Store

namespace Interpose.Registry

namespace Document

/-- A document can be read from the one way it is written down. -/
theorem ofJson?_canonical (d : Document) : (Json.parse d.canonical).bind (ofJson? 0) = some d := by
  rw [canonical, Json.parse_render d.plain_toJson, Option.bind_some, ofJson?_toJson]

/-- **Two documents are never written down alike.** -/
theorem canonical_injective {d d' : Document} (h : d.canonical = d'.canonical) : d = d' := by
  have hread := d.ofJson?_canonical
  rw [h, ofJson?_canonical] at hread
  exact (Option.some.inj hread).symm

end Document

/-! ## The tag in a file -/

/-- The tag a file carries, whatever is to be said of the document beside it. -/
def signature? (bytes : List UInt8) : Option String :=
  (Json.parse bytes).bind fun j =>
    match j.fields? ["data", "signature"] with
    | some [_, signature] => Json.needed Json.text? signature
    | _ => none

theorem signature?_of_sealed {bytes : List UInt8} {d : Document} {signature : String}
    (h : (Json.parse bytes).bind sealedOfJson? = some (d, signature)) :
    signature? bytes = some signature := by
  obtain ⟨j, hj, hsealed⟩ := Option.bind_eq_some_iff.mp h
  rw [signature?, hj, Option.bind_some]
  rw [sealedOfJson?] at hsealed
  generalize j.fields? ["data", "signature"] = fields at hsealed ⊢
  rcases fields with _ | _ | ⟨data, _ | ⟨tag, _ | ⟨_, _⟩⟩⟩
  case some.cons.cons.nil =>
    obtain ⟨d', _, hrest⟩ := Option.bind_eq_some_iff.mp hsealed
    obtain ⟨signature', hsignature, hpair⟩ := Option.bind_eq_some_iff.mp hrest
    cases hpair
    exact hsignature
  all_goals cases hsealed

namespace Store

variable {s : Store} {d : Document} {disk disk' : Disk} {bytes : List UInt8}

/-- **A file is read as a document when it carries the tag of that very
document**, as it is written down anew. -/
theorem decode_eq_ok : s.decode bytes = .ok d ↔
    (Json.parse bytes).bind sealedOfJson? = some (d, s.tag d.canonical) := by
  rw [decode]
  constructor
  · intro h
    split at h
    · cases h
    · rename_i d' signature hsealed
      split at h
      · rename_i htag
        cases h
        rw [hsealed, htag]
      · cases h
  · intro h
    rw [h]
    exact if_pos rfl

theorem load_of_read (h : disk.read s.path = .ok bytes) :
    s.load disk = (s.decode bytes).map some := by
  rw [load, h]

/-- What is saved is loaded, and carries its tag. -/
theorem load_save (h : s.save d disk = (.ok (), disk')) :
    s.load disk' = .ok (some d) ∧
      ∃ bytes, disk'.read s.path = .ok bytes ∧ signature? bytes = some (s.tag d.canonical) := by
  obtain ⟨bytes, hread, hdecode⟩ := holds_save h
  refine ⟨?_, bytes, hread, signature?_of_sealed (decode_eq_ok.mp hdecode)⟩
  rw [load_of_read hread, hdecode]
  rfl

/-- A document that is loaded is the one whose tag the file carries. -/
theorem signature?_of_load (hread : disk.read s.path = .ok bytes)
    (h : s.load disk = .ok (some d)) : signature? bytes = some (s.tag d.canonical) := by
  rw [load_of_read hread] at h
  cases hdecode : s.decode bytes with
  | error e => simp [hdecode, Except.map] at h
  | ok d' =>
    rw [hdecode] at h
    cases h
    exact signature?_of_sealed (decode_eq_ok.mp hdecode)

/-! ## Stores with keys -/

/-- A store whose tags are made with a key, by any function of key and text. -/
def keyed (mac : List UInt8 → List UInt8 → String) (path : Path) (key : List UInt8) : Store where
  path := path
  tag := mac key

example (path : Path) (key : String) : withKey path key
    = keyed (fun k text => Text.Hex.ofBytes (Digest.hmac k text)) path key.toUTF8.toList := rfl

/-- A file that was saved under one key, read under another. -/
theorem load_keyed {mac : List UInt8 → List UInt8 → String} {path : Path} {key : List UInt8}
    (h : (keyed mac path key).save d disk = (.ok (), disk')) (other : List UInt8) :
    (keyed mac path other).load disk' =
      if mac other d.canonical = mac key d.canonical then .ok (some d)
      else .error .signatureMismatch := by
  obtain ⟨bytes, hread, hdecode⟩ := holds_save h
  have hsealed := decode_eq_ok.mp hdecode
  rw [load_of_read (s := keyed mac path other) hread, decode, hsealed]
  by_cases htag : mac other d.canonical = mac key d.canonical
  · rw [if_pos htag]
    exact congrArg (Except.map some) (if_pos htag)
  · rw [if_neg htag]
    exact congrArg (Except.map some) (if_neg htag)

/-- What the tag of a document does for it. -/
structure Sealed (mac : List UInt8 → List UInt8 → String) (path : Path) (key : List UInt8)
    (f : Document) : Prop where
  /-- It can be saved wherever a file can be put. -/
  saved : ∀ disk, disk.Accepts path → ∃ disk', (keyed mac path key).save f disk = (.ok (), disk')
  /-- Saved, it is loaded as it was, and the file carries its tag. -/
  returned : ∀ disk disk', (keyed mac path key).save f disk = (.ok (), disk') →
    (keyed mac path key).load disk' = .ok (some f) ∧
      ∃ bytes, disk'.read path = .ok bytes ∧ signature? bytes = some (mac key f.canonical)
  /-- Any file at all that carries its tag is refused, or is loaded as it, or
  is loaded as a document with another text and the same tag. -/
  kept : ∀ disk bytes, disk.read path = .ok bytes →
    signature? bytes = some (mac key f.canonical) →
    (∃ e, (keyed mac path key).load disk = .error e) ∨
      (keyed mac path key).load disk = .ok (some f) ∨
      ∃ g, (keyed mac path key).load disk = .ok (some g) ∧ g.canonical ≠ f.canonical ∧
        mac key g.canonical = mac key f.canonical
  /-- Under another key it is refused for its tag, unless both keys give its
  text the same one. -/
  foreign : ∀ disk disk' other, (keyed mac path key).save f disk = (.ok (), disk') →
    (keyed mac path other).load disk' =
      if mac other f.canonical = mac key f.canonical then .ok (some f)
      else .error .signatureMismatch

/-- **A document is safe under its tag**, whatever makes the tags and whatever
the key: it comes back as it was saved, and no other document is loaded in
its place unless two texts have one tag. -/
theorem tag_seals (mac : List UInt8 → List UInt8 → String) (path : Path) (key : List UInt8)
    (f : Document) : Sealed mac path key f where
  saved disk h := save_isOk.mpr h
  returned disk disk' h := load_save h
  kept disk bytes hread hsignature := by
    cases hload : (keyed mac path key).load disk with
    | error e => exact .inl ⟨e, rfl⟩
    | ok loaded =>
      right
      cases loaded with
      | none =>
        -- there is a file, so that the answer is never that there is none
        rw [load_of_read hread] at hload
        cases hdecode : (keyed mac path key).decode bytes <;> simp [hdecode, Except.map] at hload
      | some g =>
        have htag : mac key g.canonical = mac key f.canonical :=
          Option.some.inj ((signature?_of_load hread hload).symm.trans hsignature)
        by_cases htext : g.canonical = f.canonical
        · exact .inl (by rw [Document.canonical_injective htext])
        · exact .inr ⟨g, rfl, htext, htag⟩
  foreign disk disk' other h := load_keyed h other

end Store

end Interpose.Registry
