/-
Interpose.Proofs.Json.Lexing — what is written is read as the tokens that were meant.

A text is written byte by byte, and each byte, escaped or not, is read back
as that byte (`lexText_escapeByte`); so a text in quotes is one token
(`lexText_quoted`). A number is written in digits without needless noughts,
and is read up to the first byte that could not be a part of it
(`lexUnsigned_digitBytes`).
-/
import Interpose.Json.Printer
import Interpose.Proofs.Text.Bytes

namespace Interpose.Json

/-! ## Texts -/

/-- What has been read of a text that has gone well so far. -/
def TextSoFar.read (acc : List UInt8) : TextSoFar := { bytes := some acc }

theorem lexText_quote (t : TextSoFar) (r : List UInt8) :
    lexText t (ascii '"' :: r) = some (t.finish, r) := by
  rw [lexText.eq_def]
  exact if_pos rfl

/-- A backslash and a letter are read as the byte they stand for. -/
theorem lexText_escape {e x : UInt8} (hu : e ≠ ascii 'u') (he : escaped? e = some x)
    (acc r : List UInt8) :
    lexText (.read acc) (ascii '\\' :: e :: r) = lexText (.read (x :: acc)) r := by
  rw [lexText.eq_def]
  simp only [show ascii '\\' ≠ ascii '"' by decide, if_false, if_true, hu, he]
  rfl

/-- Four digits of a small number are read as the byte of that number. -/
theorem lexText_unicode {b h l : UInt8} {hi lo : Nat} (hh : hexDigit? h = some hi)
    (hl : hexDigit? l = some lo) (hb : hi * 16 + lo = b.toNat) (hsmall : b < 0x20)
    (acc r : List UInt8) :
    lexText (.read acc) (ascii '\\' :: ascii 'u' :: ascii '0' :: ascii '0' :: h :: l :: r)
      = lexText (.read (b :: acc)) r := by
  have hzero : hexDigit? (ascii '0') = some 0 := by decide
  have hlt : b.toNat < 32 := UInt8.lt_iff_toNat_lt.mp hsmall
  have hpush : (TextSoFar.read acc).pushUnit (((0 * 16 + 0) * 16 + hi) * 16 + lo)
      = TextSoFar.read (b :: acc) := by
    have hcode : ((0 * 16 + 0) * 16 + hi) * 16 + lo = b.toNat := by omega
    rw [hcode, TextSoFar.pushUnit, if_neg (by omega), if_neg (by omega),
      Text.utf8EncodeChar_ofNat (by omega), UInt8.ofNat_toNat]
    rfl
  rw [lexText.eq_def]
  simp only [show ascii '\\' ≠ ascii '"' by decide, if_false, if_true, hzero, hh, hl, hpush]

theorem lexText_plain {b : UInt8} (hq : b ≠ ascii '"') (hs : b ≠ ascii '\\') (hc : ¬ b < 0x20)
    (acc r : List UInt8) :
    lexText (.read acc) (b :: r) = lexText (.read (b :: acc)) r := by
  rw [lexText.eq_def]
  simp only [hq, hs, hc, if_false]
  rfl

/-- The digits of a half byte. -/
theorem hexDigit?_digit {n : Nat} (h : n < 16) : hexDigit? (ascii (Text.Hex.digit n)) = some n := by
  have hall : ∀ n < 16, hexDigit? (ascii (Text.Hex.digit n)) = some n := by decide
  exact hall n h

/-- **A byte is read back as it was**, however it is written. -/
theorem lexText_escapeByte (b : UInt8) (acc r : List UInt8) :
    lexText (.read acc) (escapeByte b ++ r) = lexText (.read (b :: acc)) r := by
  have hlt := b.toNat_lt
  have hletter : ∀ {x e : UInt8}, b = x → e ≠ ascii 'u' → escaped? e = some x →
      lexText (.read acc) ([ascii '\\', e] ++ r) = lexText (.read (b :: acc)) r := by
    rintro x e rfl hu he
    exact lexText_escape hu he acc r
  unfold escapeByte
  split
  · exact hletter ‹_› (by decide) (by decide)
  split
  · exact hletter ‹_› (by decide) (by decide)
  split
  · exact hletter ‹_› (by decide) (by decide)
  split
  · exact hletter ‹_› (by decide) (by decide)
  split
  · exact hletter ‹_› (by decide) (by decide)
  split
  · exact hletter ‹_› (by decide) (by decide)
  split
  · exact hletter ‹_› (by decide) (by decide)
  split
  · rename_i hsmall
    exact lexText_unicode (hexDigit?_digit (by omega)) (hexDigit?_digit (by omega))
      (by omega) hsmall acc r
  · rename_i hq hs _ _ _ _ _ hc
    exact lexText_plain hq hs hc acc r

theorem lexText_escapeBytes (bs acc r : List UInt8) :
    lexText (.read acc) (bs.flatMap escapeByte ++ r) = lexText (.read (bs.reverse ++ acc)) r := by
  induction bs generalizing acc with
  | nil => rfl
  | cons b bs ih =>
    rw [List.flatMap_cons, List.append_assoc, lexText_escapeByte, ih, List.reverse_cons,
      List.append_assoc, List.singleton_append]

/-- **A text in quotes is read back as it was.** -/
theorem lexText_quoted (s : String) (r : List UInt8) :
    lexText {} (s.toUTF8.toList.flatMap escapeByte ++ ascii '"' :: r) = some (some s, r) := by
  refine (lexText_escapeBytes s.toUTF8.toList [] _).trans ?_
  rw [lexText_quote, List.append_nil]
  show some (String.fromUTF8? s.toUTF8.toList.reverse.reverse.toByteArray, r) = _
  rw [List.reverse_reverse, Text.fromUTF8?_toUTF8]

/-! ## Numbers -/

/-- No byte that a number could go on with comes next. -/
def Stops (r : List UInt8) : Prop :=
  ∀ b ∈ r.head?, isDigit b = false ∧ b ≠ ascii '.' ∧ b ≠ ascii 'e' ∧ b ≠ ascii 'E'

theorem toNat_ascii {c : Char} (h : c.isDigit = true) : (ascii c).toNat = c.toNat := by
  have hbounds := Char.isDigit_iff_toNat.mp h
  simp only [Char.reduceToNat] at hbounds
  rw [ascii, UInt8.toNat_ofNat']
  omega

theorem isDigit_iff {b : UInt8} : isDigit b = true ↔ 48 ≤ b.toNat ∧ b.toNat ≤ 57 := by
  rw [isDigit, Bool.and_eq_true, decide_eq_true_iff, decide_eq_true_iff, UInt8.le_iff_toNat_le,
    UInt8.le_iff_toNat_le]
  rfl

/-- The digits of a number, as bytes. -/
def digitBytes (n : Nat) : List UInt8 := (Nat.toDigits 10 n).map ascii

theorem isDigit_of_mem_digitBytes {n : Nat} {b : UInt8} (h : b ∈ digitBytes n) :
    isDigit b = true := by
  obtain ⟨c, hc, rfl⟩ := List.mem_map.mp h
  have hc := Nat.isDigit_of_mem_toDigits (by decide) (by decide) hc
  rw [isDigit_iff, toNat_ascii hc]
  exact Char.isDigit_iff_toNat.mp hc

/-- Digits have the value of the number that they were made of. -/
theorem digitsValue_digitBytes (n : Nat) : digitsValue (digitBytes n) = n := by
  have hfold : ∀ (cs : List Char) (k : Nat), (∀ c ∈ cs, c.isDigit = true) →
      (cs.map ascii).foldl (fun n d => 10 * n + (d.toNat - 48)) k = Nat.ofDigitChars 10 cs k := by
    intro cs
    induction cs with
    | nil => intro k _; rfl
    | cons c cs ih =>
      intro k h
      rw [List.map_cons, List.foldl_cons, toNat_ascii (h c List.mem_cons_self),
        ih _ fun d hd => h d (List.mem_cons_of_mem c hd)]
      rfl
  refine (hfold _ 0 fun c hc => Nat.isDigit_of_mem_toDigits (by decide) (by decide) hc).trans ?_
  exact Nat.ofDigitChars_ten_toDigits

theorem digitBytes_ne_nil (n : Nat) : digitBytes n ≠ [] := by
  simp [digitBytes]

/-- A nought stands in front only of nought itself. -/
theorem head?_digitBytes {n : Nat} (h : 0 < n) : (digitBytes n).head? ≠ some (ascii '0') := by
  have hdigit : ∀ m < 10, 0 < m → ascii m.digitChar ≠ ascii '0' := by decide
  induction n using Nat.strongRecOn with
  | ind n ih =>
    rw [digitBytes]
    by_cases hn : n < 10
    · rw [Nat.toDigits_of_lt_base hn]
      simpa using hdigit n hn h
    · rw [Nat.toDigits_of_base_le (by decide) (by omega), List.map_append,
        List.head?_append]
      have hhead := ih (n / 10) (by omega) (by omega)
      rw [digitBytes] at hhead
      cases hcons : (Nat.toDigits 10 (n / 10)).map ascii with
      | nil => exact absurd hcons (digitBytes_ne_nil (n / 10))
      | cons d ds =>
        rw [hcons] at hhead
        exact hhead

theorem lexDigits_append {ds r : List UInt8} (hne : ds ≠ []) (hds : ∀ d ∈ ds, isDigit d = true)
    (hr : Stops r) : lexDigits (ds ++ r) = some (ds, r) := by
  have htake : (ds ++ r).takeWhile isDigit = ds := by
    rw [List.takeWhile_append_of_pos hds]
    cases r with
    | nil => exact List.append_nil ds
    | cons b r => simp [(hr b rfl).1]
  have hdrop : (ds ++ r).dropWhile isDigit = r := by
    rw [List.dropWhile_append_of_pos hds]
    cases r with
    | nil => rfl
    | cons b r => simp [(hr b rfl).1]
  rw [lexDigits, htake, hdrop, if_neg (by simpa using hne)]

/-- **Digits are read as the number that they were made of.** -/
theorem lexUnsigned_digitBytes (negative : Bool) (n : Nat) {r : List UInt8} (hr : Stops r) :
    lexUnsigned negative (digitBytes n ++ r) = some (wholeNumber negative n, r) := by
  have hlead : ¬((digitBytes n).head? = some (ascii '0') ∧ 1 < (digitBytes n).length) := by
    rintro ⟨hhead, hlen⟩
    by_cases hn : n < 10
    · rw [digitBytes, Nat.toDigits_of_lt_base hn] at hlen
      simp at hlen
    · exact head?_digitBytes (by omega) hhead
  have hfraction : lexFraction r = some (none, r) := by
    cases r with
    | nil => rfl
    | cons b r => rw [lexFraction, if_neg (hr b rfl).2.1]
  have hexponent : lexExponent r = some (none, r) := by
    cases r with
    | nil => rfl
    | cons b r =>
      obtain ⟨_, _, he, hE⟩ := hr b rfl
      rw [lexExponent, if_neg (by simp [he, hE])]
  rw [lexUnsigned, lexDigits_append (digitBytes_ne_nil n) (fun _ => isDigit_of_mem_digitBytes) hr,
    Option.bind_some]
  dsimp only
  rw [if_neg hlead, hfraction, Option.bind_some, hexponent, Option.map_some,
    digitsValue_digitBytes]

end Interpose.Json
