/-
Interpose.Toml.Parser — reading documents.

A document is a sequence of lines, each empty, a comment, a header or a key
with its value. Values nest less than eighty deep, and a dotted key has
less than eighty parts. Readers that call one another count down; the count
starts at the length of the text, and each takes at least one character.
-/
import Interpose.Toml.Text

namespace Interpose.Toml

/-- How many parts a key may not reach, and how deep values may not nest. -/
def depthBound : Nat := 80

/-! ## Between the values -/

def skipGaps (cs : List Char) : List Char := cs.dropWhile isGap

/-- What follows a comment, if one is at the front. -/
def skipComment (cs : List Char) : List Char :=
  match cs with
  | '#' :: r => r.dropWhile isPlain
  | _ => cs

/-- The end of a line that says nothing more: the next line, or the end. -/
def lineEnd? (cs : List Char) : Option (List Char) :=
  match skipComment (skipGaps cs) with
  | [] => some []
  | cs => lineBreak? cs

/-- Skips blanks, comments and line breaks inside an array; a comment there
must end with its line. -/
def skipLines : Nat → List Char → List Char
  | 0, cs => cs
  | fuel + 1, cs =>
    let cs := skipGaps cs
    match lineBreak? (skipComment cs) with
    | some r => skipLines fuel r
    | none => cs

/-! ## Keys -/

def isBareKeyChar (c : Char) : Bool := c.isAlphanum || c = '_' || c = '-'

/-- One part of a key, with the blanks around it. -/
def keyPart? (cs : List Char) : Option (String × List Char) :=
  let cs := skipGaps cs
  let bare := cs.takeWhile isBareKeyChar
  let part := if bare.isEmpty then keyText? cs else some (String.ofList bare, cs.drop bare.length)
  part.map fun p => (p.1, skipGaps p.2)

/-- The further parts of a key. -/
def moreParts : Nat → List Char → Option (List String × List Char)
  | 0, cs => some ([], cs)
  | fuel + 1, cs =>
    match cs with
    | '.' :: r => do
      let (k, r) ← keyPart? r
      let (ks, r) ← moreParts fuel r
      some (k :: ks, r)
    | _ => some ([], cs)

/-- A key: the parts before the last dot, and the last part. -/
def key? (cs : List Char) : Option ((List String × String) × List Char) := do
  let (k, cs) ← keyPart? cs
  let (ks, cs) ← moreParts cs.length cs
  if ks.length + 1 < depthBound then
    some (((k :: ks).dropLast, (k :: ks).getLastD k), cs)
  else none

/-! ## Values -/

mutual

/-- A value at the front; `depth` is how many more may stand inside one another. -/
def value? : Nat → Nat → List Char → Option (Toml × List Char)
  | 0, _, _ => none
  | fuel + 1, depth, cs =>
    match cs with
    | '[' :: r =>
      if depth = 0 then none else items? fuel (depth - 1) [] (skipLines r.length r)
    | '{' :: r =>
      if depth = 0 then none
      else match skipGaps r with
        | '}' :: r => some (.table .inline [], r)
        | r => members? fuel (depth - 1) [] r
    | c :: _ =>
      if c = '"' ∨ c = '\'' then (anyText? cs).map fun p => (.text p.1, p.2) else word? cs
    | [] => none

/-- The items of an array, up to its end; a comma may follow the last. -/
def items? : Nat → Nat → List Toml → List Char → Option (Toml × List Char)
  | 0, _, _, _ => none
  | fuel + 1, depth, done, cs =>
    match cs with
    | ']' :: r => some (.array done.reverse, r)
    | _ => do
      let (v, r) ← value? fuel depth cs
      match skipLines r.length r with
      | ',' :: r => items? fuel depth (v :: done) (skipLines r.length r)
      | ']' :: r => some (.array (v :: done).reverse, r)
      | _ => none

/-- The members of a table in braces, up to its end; all on one line. -/
def members? : Nat → Nat → Members → List Char → Option (Toml × List Char)
  | 0, _, _, _ => none
  | fuel + 1, depth, done, cs => do
    let ((path, k), r) ← key? cs
    let r ← lead? '=' r
    let (v, r) ← value? fuel depth (skipGaps r)
    let done ← addDotted k v path done
    match skipGaps r with
    | ',' :: r => members? fuel depth done r
    | '}' :: r => some (.table .inline done, r)
    | _ => none

end

/-! ## Lines -/

/-- A document so far: its members, and the header the next keys belong to. -/
structure Draft where
  members : Members := []
  header : List String := []

/-- A header: its key between one or two pairs of brackets, and no more on the line. -/
def header? (d : Draft) (cs : List Char) : Option (Draft × List Char) :=
  let close (repeated : Bool) (cs : List Char) : Option (Draft × List Char) := do
    let ((path, k), cs) ← key? cs
    let cs ← lead? ']' cs
    let cs ← if repeated then lead? ']' cs else some cs
    let cs ← lineEnd? cs
    let members ← within (if repeated then openRow k else openTable k) path d.members
    some ({ members, header := path ++ [k] }, cs)
  match cs with
  | '[' :: r => close true r
  | _ => close false cs

/-- A key with its value, and no more on the line. -/
def keyValue? (d : Draft) (cs : List Char) : Option (Draft × List Char) := do
  let ((path, k), r) ← key? cs
  let r ← lead? '=' r
  let (v, r) ← value? (r.length + 1) (depthBound - 1) (skipGaps r)
  let r ← lineEnd? r
  let members ← within (addDotted k v path) d.header d.members
  some ({ d with members }, r)

/-- Reads lines to the end. -/
def lines? : Nat → Draft → List Char → Option Members
  | 0, _, _ => none
  | fuel + 1, d, cs =>
    match skipGaps cs with
    | [] => some d.members
    | c :: r =>
      if c = '#' ∨ c = '\n' ∨ c = '\r' then (lineEnd? (c :: r)).bind (lines? fuel d)
      else if c = '[' then (header? d r).bind fun p => lines? fuel p.1 p.2
      else (keyValue? d (c :: r)).bind fun p => lines? fuel p.1 p.2

/-- Reads a document; a mark of byte order at its start does not count. -/
def parse (s : String) : Option Members :=
  let cs := match s.toList with
    | '\uFEFF' :: r => r
    | cs => cs
  lines? (cs.length + 1) {} cs

end Interpose.Toml
