/-
Interpose.Text.Column — texts brought to a width, counted in code points.
-/
namespace Interpose.Text

/-- Blanks in front, up to a width. -/
def alignRight (width : Nat) (s : String) : String :=
  String.ofList (List.replicate (width - s.length) ' ') ++ s

/-- Blanks behind, up to a width. -/
def alignLeft (width : Nat) (s : String) : String :=
  s ++ String.ofList (List.replicate (width - s.length) ' ')

end Interpose.Text
