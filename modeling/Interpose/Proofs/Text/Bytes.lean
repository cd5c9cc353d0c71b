/-
Interpose.Proofs.Text.Bytes — a text and its bytes.

Texts travel and are kept as lists of bytes. The bytes of a text are
UTF-8, and reading them gives the text again: `fromUTF8?_toUTF8`. Which
bytes are those of a text is told character by character (`isText_iff`), so
that what is put together from texts is a text.
-/
namespace Interpose.Text

/-- The list of a byte array is the list of its data. -/
theorem toList_eq_data (b : ByteArray) : b.toList = b.data.toList := by
  have hloop : ∀ n i r, b.size - i = n → i ≤ b.size →
      ByteArray.toList.loop b i r = r.reverse ++ b.data.toList.drop i := by
    intro n
    induction n with
    | zero =>
      intro i r hn hi
      have hlen : b.data.toList.length ≤ i := by
        rw [Array.length_toList]
        have : b.data.size = b.size := rfl
        omega
      rw [ByteArray.toList.loop, if_neg (by omega), List.drop_eq_nil_of_le hlen, List.append_nil]
    | succ n ih =>
      intro i r hn hi
      have hlt : i < b.size := by omega
      have hdata : i < b.data.toList.length := by
        rw [Array.length_toList]
        exact hlt
      rw [ByteArray.toList.loop, if_pos hlt, ih (i + 1) _ (by omega) (by omega),
        List.drop_eq_getElem_cons hdata, List.reverse_cons, List.append_assoc,
        List.singleton_append]
      congr 2
      rw [Array.getElem_toList]
      exact getElem!_pos b.data i hlt
  have h := hloop _ 0 [] rfl (Nat.zero_le _)
  rw [ByteArray.toList, h, List.drop_zero]
  rfl

theorem toByteArray_toList (b : ByteArray) : b.toList.toByteArray = b := by
  have hdata : b.toList.toByteArray.data = b.data := by
    rw [List.data_toByteArray, toList_eq_data, Array.toArray_toList]
  exact ByteArray.ext hdata

/-- **The bytes of a text give the text back.** -/
theorem fromUTF8?_toUTF8 (s : String) :
    String.fromUTF8? s.toUTF8.toList.toByteArray = some s := by
  rw [toByteArray_toList, String.toUTF8_eq_toByteArray, String.fromUTF8?, dif_pos s.isValidUTF8]
  rfl

/-- **A text has the bytes it was read from.** -/
theorem toUTF8_of_fromUTF8? {bs : List UInt8} {s : String}
    (h : String.fromUTF8? bs.toByteArray = some s) : s.toUTF8.toList = bs := by
  rw [String.fromUTF8?] at h
  split at h
  next =>
    cases h
    rw [toList_eq_data]
    show bs.toByteArray.data.toList = bs
    rw [List.data_toByteArray]
  next => cases h

/-! ## Bytes that are text -/

/-- The bytes of some text. -/
def IsText (bs : List UInt8) : Prop := ∃ s : String, s.toUTF8.toList = bs

theorem toUTF8_ofList (cs : List Char) :
    (String.ofList cs).toUTF8.toList = cs.flatMap String.utf8EncodeChar := by
  rw [toList_eq_data, String.toUTF8_eq_toByteArray, String.toByteArray_ofList, List.utf8Encode,
    List.data_toByteArray]

theorem isText_iff {bs : List UInt8} :
    IsText bs ↔ ∃ cs : List Char, cs.flatMap String.utf8EncodeChar = bs := by
  constructor
  · rintro ⟨s, rfl⟩
    exact ⟨s.toList, by rw [← toUTF8_ofList, String.ofList_toList]⟩
  · rintro ⟨cs, rfl⟩
    exact ⟨String.ofList cs, toUTF8_ofList cs⟩

theorem IsText.append {bs bs' : List UInt8} (h : IsText bs) (h' : IsText bs') : IsText (bs ++ bs') := by
  obtain ⟨cs, rfl⟩ := isText_iff.mp h
  obtain ⟨cs', rfl⟩ := isText_iff.mp h'
  exact isText_iff.mpr ⟨cs ++ cs', List.flatMap_append⟩

theorem IsText.flatMap {α : Type} {f : α → List UInt8} {xs : List α} (h : ∀ x ∈ xs, IsText (f x)) :
    IsText (xs.flatMap f) := by
  induction xs with
  | nil => exact isText_iff.mpr ⟨[], rfl⟩
  | cons x xs ih =>
    rw [List.flatMap_cons]
    exact (h x List.mem_cons_self).append (ih fun y hy => h y (List.mem_cons_of_mem x hy))

/-- A byte below 128 is a character of its own. -/
theorem utf8EncodeChar_ofNat {n : Nat} (h : n < 128) :
    String.utf8EncodeChar (Char.ofNat n) = [UInt8.ofNat n] := by
  have hall : ∀ n < 128, String.utf8EncodeChar (Char.ofNat n) = [UInt8.ofNat n] := by decide
  exact hall n h

/-- Bytes below 128 are text, whatever they are. -/
theorem isText_ascii {bs : List UInt8} (h : bs.all (· < 128) = true) : IsText bs := by
  have hflat : bs.flatMap (fun b => [b]) = bs := by simp
  rw [← hflat]
  refine IsText.flatMap fun b hb => isText_iff.mpr ⟨[Char.ofNat b.toNat], ?_⟩
  have hlt : b.toNat < 128 :=
    UInt8.lt_iff_toNat_lt.mp (of_decide_eq_true (List.all_eq_true.mp h b hb))
  rw [List.flatMap_singleton, utf8EncodeChar_ofNat hlt, UInt8.ofNat_toNat]

/-- A character is one byte below 128, or all of its bytes are from 128 on. -/
theorem utf8EncodeChar_cases (c : Char) :
    (∃ b, b < 128 ∧ String.utf8EncodeChar c = [b]) ∨ ∀ b ∈ String.utf8EncodeChar c, 128 ≤ b := by
  have hhigh : ∀ {n : Nat}, 128 ≤ n → n < 256 → 128 ≤ UInt8.ofNat n := fun hlo hhi => by
    rw [UInt8.le_iff_toNat_le, UInt8.toNat_ofNat_of_lt' hhi]
    exact hlo
  rw [String.utf8EncodeChar]
  split
  next h =>
    refine .inl ⟨_, ?_, rfl⟩
    rw [UInt8.lt_iff_toNat_lt, UInt8.toNat_ofNat_of_lt' (Nat.lt_of_le_of_lt h (by decide))]
    exact Nat.lt_succ_of_le h
  next =>
    right
    split
    · simp only [List.forall_mem_cons, List.not_mem_nil, false_implies, implies_true, and_true]
      exact ⟨hhigh (by omega) (by omega), hhigh (by omega) (by omega)⟩
    split
    · simp only [List.forall_mem_cons, List.not_mem_nil, false_implies, implies_true, and_true]
      exact ⟨hhigh (by omega) (by omega), hhigh (by omega) (by omega), hhigh (by omega) (by omega)⟩
    · simp only [List.forall_mem_cons, List.not_mem_nil, false_implies, implies_true, and_true]
      exact ⟨hhigh (by omega) (by omega), hhigh (by omega) (by omega), hhigh (by omega) (by omega),
        hhigh (by omega) (by omega)⟩

end Interpose.Text
