/-
Interpose.Proofs.Text.Decimal — a number that is printed can be read.

Digits read one after another come to the number that was printed with
them (`readDigits_eq`), and a reader with a bound takes every number below
it (`unsigned?_toString`).
-/
import Interpose.Text.Blank
import Interpose.Text.Decimal

namespace Interpose.Text

variable {c : Char} {cs : List Char} {bound n : Nat}

theorem isBlank_of_isDigit (h : c.isDigit = true) : isBlank c = false := by
  have hdigit := Char.isDigit_iff_toNat.mp h
  simp only [Char.reduceToNat] at hdigit
  simp only [isBlank, blankRanges, List.any_cons, List.any_nil, Bool.or_false, Bool.or_eq_false_iff,
    Bool.and_eq_false_iff, decide_eq_false_iff_not]
  omega

/-- **Digits come to the number they stand for.** -/
theorem readDigits_eq (h : ∀ c ∈ cs, c.isDigit = true) (acc : Nat) :
    readDigits acc cs = some (Nat.ofDigitChars 10 cs acc) := by
  induction cs generalizing acc with
  | nil => rfl
  | cons c cs ih =>
    have hdigit : digit? c = some (c.toNat - '0'.toNat) := if_pos (h c List.mem_cons_self)
    rw [readDigits, hdigit, Option.bind_some, ih fun d hd => h d (List.mem_cons_of_mem c hd)]
    rfl

theorem toList_toString (n : Nat) : (toString n).toList = Nat.toDigits 10 n := by
  rw [Nat.toString_eq_repr, Nat.toList_repr]

theorem isDigit_of_mem_toString (h : c ∈ (toString n).toList) : c.isDigit = true := by
  rw [toList_toString] at h
  exact Nat.isDigit_of_mem_toDigits (by decide) (by decide) h

theorem toString_ne_nil (n : Nat) : (toString n).toList ≠ [] := by
  rw [toList_toString]
  exact Nat.toDigits_ne_nil

/-- **A number below the bound is read back.** -/
theorem unsigned?_toString (h : n < bound) : unsigned? bound (toString n).toList = some n := by
  have hread : readDigits 0 (toString n).toList = some n := by
    rw [readDigits_eq (fun _ => isDigit_of_mem_toString), toList_toString,
      Nat.ofDigitChars_ten_toDigits]
  cases hcs : (toString n).toList with
  | nil => exact absurd hcs (toString_ne_nil n)
  | cons c cs =>
    -- no number has a sign in front
    have hsign : c ≠ '+' := by
      rintro rfl
      have hdigit : '+'.isDigit = true := isDigit_of_mem_toString (hcs ▸ List.mem_cons_self)
      cases hdigit
    rw [hcs] at hread
    have hnat : nat? (c :: cs) = some n := hread
    rw [unsigned?, hnat, Option.filter_some, if_pos (by simpa using h)]
    exact fun r heq => hsign (List.cons.inj heq).1

end Interpose.Text
