/-
Interpose.Toml.Text — texts in quotes.

There are four kinds: between double quotes with escapes, between single
quotes as they stand, and each of both over several lines between three
quotes. A text over several lines drops a line break at its very start, and
one or two quotes may stand right before the three that close it.
-/
import Interpose.Toml.Word

namespace Interpose.Toml

/-! ## Characters -/

/-- What may stand in a text on its own: no control but the tab. -/
def isPlain (c : Char) : Bool := c = '\t' || (0x20 ≤ c.toNat && c.toNat ≠ 0x7F)

def isGap (c : Char) : Bool := c = ' ' || c = '\t'

/-- What follows a line break at the front. -/
def lineBreak? : List Char → Option (List Char)
  | '\n' :: r => some r
  | '\r' :: '\n' :: r => some r
  | _ => none

/-- The character of a code point with a fixed count of digits. -/
def codePoint? (count : Nat) (cs : List Char) : Option (Char × List Char) :=
  let ds := cs.take count
  if ds.length = count ∧ ds.all (fun c => (Text.Hex.value? c).isSome) then
    let n := ds.foldl (fun n c => 16 * n + (Text.Hex.value? c).getD 0) 0
    if n < 0xD800 ∨ (0xDFFF < n ∧ n < 0x110000) then some (Char.ofNat n, cs.drop count) else none
  else none

/-- The character an escape stands for, from behind its backslash. -/
def escape? : List Char → Option (Char × List Char)
  | 'b' :: r => some ('\x08', r)
  | 't' :: r => some ('\t', r)
  | 'n' :: r => some ('\n', r)
  | 'f' :: r => some ('\x0c', r)
  | 'r' :: r => some ('\r', r)
  | '"' :: r => some ('"', r)
  | '\\' :: r => some ('\\', r)
  | 'u' :: r => codePoint? 4 r
  | 'U' :: r => codePoint? 8 r
  | _ => none

/-! ## One line -/

/-- The rest of a text on one line from behind its quote; `acc` is what has
been read, last one first. -/
def lineText (fuel : Nat) (quote : Char) (acc : List Char) (cs : List Char) :
    Option (String × List Char) :=
  match fuel with
  | 0 => none
  | fuel + 1 =>
    match cs with
    | [] => none
    | c :: r =>
      if c = quote then some (String.ofList acc.reverse, r)
      else if c = '\\' ∧ quote = '"' then
        (escape? r).bind fun p => lineText fuel quote (p.1 :: acc) p.2
      else if isPlain c then lineText fuel quote (c :: acc) r
      else none

/-! ## Several lines -/

/-- What follows a backslash at the end of a line: the blanks and line breaks
behind it do not count. -/
def continued? (cs : List Char) : Option (List Char) :=
  (lineBreak? (cs.dropWhile isGap)).map fun r =>
    r.dropWhile fun c => isGap c || c = '\n' || c = '\r'

/-- The rest of a text over several lines. Three quotes close it, with up to
two more in front that belong to the text. -/
def blockText (fuel : Nat) (quote : Char) (acc : List Char) (cs : List Char) :
    Option (String × List Char) :=
  match fuel with
  | 0 => none
  | fuel + 1 =>
    match cs with
    | [] => none
    | c :: r =>
      if c = quote then
        let n := (cs.takeWhile (· = quote)).length
        let quotes (k : Nat) : List Char := List.replicate k quote ++ acc
        if n < 3 then blockText fuel quote (quotes n) (cs.drop n)
        else if n ≤ 5 then some (String.ofList (quotes (n - 3)).reverse, cs.drop n)
        else none
      else if c = '\\' ∧ quote = '"' then
        match continued? r with
        | some r => blockText fuel quote acc r
        | none => (escape? r).bind fun p => blockText fuel quote (p.1 :: acc) p.2
      else
        match lineBreak? cs with
        | some r => blockText fuel quote ('\n' :: acc) r
        | none => if isPlain c then blockText fuel quote (c :: acc) r else none

/-! ## Both -/

/-- A text on one line at the front. -/
def keyText? : List Char → Option (String × List Char)
  | [] => none
  | c :: r => if c = '"' ∨ c = '\'' then lineText (r.length + 1) c [] r else none

/-- A text of any kind at the front. -/
def anyText? (cs : List Char) : Option (String × List Char) :=
  match cs with
  | a :: b :: c :: r =>
    if (a = '"' ∨ a = '\'') ∧ b = a ∧ c = a then
      blockText (r.length + 1) a [] ((lineBreak? r).getD r)
    else keyText? cs
  | _ => keyText? cs

end Interpose.Toml
