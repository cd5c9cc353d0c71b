/-
Interpose.Text.Blank — which characters are blank, and trimming.

Blank means the Unicode property White_Space: twenty-five code points,
not only the six ASCII ones. Identifiers, targets and module ids are all
judged by this one table, so it stands alone.
-/
namespace Interpose.Text

/-! ## The property -/

/-- The ranges of White_Space, each closed at both ends. -/
def blankRanges : List (Nat × Nat) :=
  [(0x09, 0x0D), (0x20, 0x20), (0x85, 0x85), (0xA0, 0xA0), (0x1680, 0x1680),
   (0x2000, 0x200A), (0x2028, 0x2029), (0x202F, 0x202F), (0x205F, 0x205F),
   (0x3000, 0x3000)]

/-- A character is blank when its code point lies in one of the ranges. -/
def isBlank (c : Char) : Bool :=
  blankRanges.any fun r => r.1 ≤ c.toNat && c.toNat ≤ r.2

/-- A text is blank when it has no character that is not: the empty text is. -/
def allBlank (cs : List Char) : Bool := cs.all isBlank

/-! ## Trimming -/

/-- Drops the blanks at the front. -/
def trimStart (cs : List Char) : List Char := cs.dropWhile isBlank

/-- Drops the blanks at the back. -/
def trimEnd (cs : List Char) : List Char := (cs.reverse.dropWhile isBlank).reverse

/-- Drops the blanks on both sides; those in the middle stay. -/
def trim (cs : List Char) : List Char := trimEnd (trimStart cs)

end Interpose.Text
