/-
Interpose.Proofs.Json.Printing — what is written as JSON is text.

Between texts everything that is written is ASCII. Within a text a byte is
either escaped, and then written in ASCII, or written as it is; no byte of
a character that has several is ever escaped (`escapeByte_high`), so no
character is torn apart. So whatever reads the bytes as text gets one.

Main statement: `isText_render`.
-/
import Interpose.Proofs.Json.RoundTrip

namespace Interpose.Json

open Text (IsText isText_ascii)

/-! ## Texts -/

/-- A byte of ASCII is written in ASCII. -/
theorem escapeByte_low {b : UInt8} (h : b < 128) : (escapeByte b).all (· < 128) = true := by
  have hall : ∀ n < 128, (escapeByte (UInt8.ofNat n)).all (· < 128) = true := by decide
  rw [← UInt8.ofNat_toNat (x := b)]
  exact hall b.toNat (UInt8.lt_iff_toNat_lt.mp h)

/-- Any other byte is written as it is. -/
theorem escapeByte_high {b : UInt8} (h : 128 ≤ b) : escapeByte b = [b] := by
  have hne : ∀ x < 128, b ≠ x := by
    rintro x hx rfl
    exact absurd hx (UInt8.not_lt.mpr h)
  rw [escapeByte, if_neg (hne _ (by decide)), if_neg (hne _ (by decide)), if_neg (hne _ (by decide)),
    if_neg (hne _ (by decide)), if_neg (hne _ (by decide)), if_neg (hne _ (by decide)),
    if_neg (hne _ (by decide)), if_neg fun hlt => hne b (UInt8.lt_trans hlt (by decide)) rfl]

theorem isText_escapeChar (c : Char) : IsText ((String.utf8EncodeChar c).flatMap escapeByte) := by
  rcases Text.utf8EncodeChar_cases c with ⟨b, hb, heq⟩ | hhigh
  · rw [heq, List.flatMap_singleton]
    exact isText_ascii (escapeByte_low hb)
  · have hsame : (String.utf8EncodeChar c).flatMap escapeByte = String.utf8EncodeChar c := by
      rw [List.flatMap_def, List.map_congr_left fun b hb => escapeByte_high (hhigh b hb),
        ← List.flatMap_def, List.flatMap_singleton']
    rw [hsame]
    exact Text.isText_iff.mpr ⟨[c], by simp⟩

theorem isText_quoteText (s : String) : IsText (quoteText s) := by
  have hquote : IsText [ascii '"'] := isText_ascii (by decide)
  have hbytes : s.toUTF8.toList = s.toList.flatMap String.utf8EncodeChar := by
    rw [← Text.toUTF8_ofList, String.ofList_toList]
  have hinner : IsText (s.toUTF8.toList.flatMap escapeByte) := by
    rw [hbytes, List.flatMap_assoc]
    exact .flatMap fun c _ => isText_escapeChar c
  exact (hquote.append hinner).append hquote

/-! ## Everything else -/

/-- A text of ASCII characters is written in ASCII. -/
theorem isText_textBytes {s : String} (h : s.toList.all (·.toNat < 128) = true) :
    IsText (textBytes s) := by
  refine isText_ascii (List.all_eq_true.mpr fun b hb => decide_eq_true ?_)
  obtain ⟨c, hc, rfl⟩ := List.mem_map.mp hb
  have hlt : c.toNat < 128 := of_decide_eq_true (List.all_eq_true.mp h c hc)
  rw [UInt8.lt_iff_toNat_lt, ascii, UInt8.toNat_ofNat_of_lt' (Nat.lt_trans hlt (by decide))]
  exact hlt

theorem isText_int (n : Int) : IsText (textBytes (toString n)) := by
  rw [textBytes_int]
  refine .append ?_ (isText_ascii (List.all_eq_true.mpr fun b hb => decide_eq_true ?_))
  · split <;> exact isText_ascii (by decide)
  · have hdigit := isDigit_iff.mp (isDigit_of_mem_digitBytes hb)
    exact UInt8.lt_iff_toNat_lt.mpr (Nat.lt_of_le_of_lt hdigit.2 (by decide))

theorem isText_newLine (level : Nat) : IsText (newLine level) := by
  refine isText_ascii (List.all_eq_true.mpr (List.forall_mem_cons.mpr ⟨by decide, fun b hb => ?_⟩))
  rw [List.eq_of_mem_replicate hb]
  decide

theorem isText_separator (first : Bool) : IsText (separator first) := by
  cases first <;> exact isText_ascii (by decide)

mutual

/-- A value is written as text, at whatever level. -/
theorem isText_renderAt (level : Nat) (v : Json) : IsText (renderAt level v) := by
  match v with
  | .null => exact isText_textBytes (by decide)
  | .bool true => exact isText_textBytes (by decide)
  | .bool false => exact isText_textBytes (by decide)
  | .int n => exact isText_int n
  | .real _ => exact isText_textBytes (by decide)
  | .text s => exact isText_quoteText (s.getD "")
  | .array [] => exact isText_textBytes (by decide)
  | .array (v :: vs) =>
    have hopen : IsText [ascii '['] := isText_ascii (by decide)
    have hclose : IsText [ascii ']'] := isText_ascii (by decide)
    exact ((hopen.append (isText_renderItems (level + 1) true (v :: vs))).append
      (isText_newLine level)).append hclose
  | .object [] => exact isText_textBytes (by decide)
  | .object (m :: ms) =>
    have hopen : IsText [ascii '\x7b'] := isText_ascii (by decide)
    have hclose : IsText [ascii '\x7d'] := isText_ascii (by decide)
    exact ((hopen.append (isText_renderMembers (level + 1) true (m :: ms))).append
      (isText_newLine level)).append hclose

theorem isText_renderItems (level : Nat) (first : Bool) (vs : List Json) :
    IsText (renderItems level first vs) := by
  match vs with
  | [] => exact isText_ascii (by simp [renderItems])
  | v :: vs =>
    exact (((isText_separator first).append (isText_newLine level)).append
      (isText_renderAt level v)).append (isText_renderItems level false vs)

theorem isText_renderMembers (level : Nat) (first : Bool) (ms : List (Option String × Json)) :
    IsText (renderMembers level first ms) := by
  match ms with
  | [] => exact isText_ascii (by simp [renderMembers])
  | (k, v) :: ms =>
    have hcolon : IsText (textBytes ": ") := isText_textBytes (by decide)
    exact (((((isText_separator first).append (isText_newLine level)).append
      (isText_quoteText (k.getD ""))).append hcolon).append (isText_renderAt level v)).append
      (isText_renderMembers level false ms)

end

/-- **What is written is text**, whatever is in it. -/
theorem isText_render (v : Json) : IsText (render v) := isText_renderAt 0 v

end Interpose.Json
