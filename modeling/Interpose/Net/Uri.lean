/-
Interpose.Net.Uri — which texts name a daemon.

Only URIs with the scheme http or https come up. What matters is whether
such a text is one: the authority behind the two slashes must not be empty
and has a narrow set of characters; the path behind it has a wider one, and
the query a wider one still. What follows a hash sign is not looked at.
-/
import Interpose.Text.Cut

namespace Interpose.Net.Uri

/-! ## Authority -/

/-- A character of an authority, the marks that end it included. -/
def isAuthorityChar (c : Char) : Bool :=
  c.isAlphanum || "!#$&'()*+,-./:;=?@[]_~".toList.contains c

/-- What has been seen of an authority. -/
structure Seen where
  colons : Nat := 0
  opened : Bool := false
  closed : Bool := false
  percent : Bool := false
  /-- Whether the last character was an at sign. -/
  atSign : Bool := false

/-- Takes one character. Colons and percent signs in front of an at sign or
inside brackets are forgotten with it. -/
def Seen.take (s : Seen) (c : Char) : Option Seen :=
  let plain := { s with atSign := false }
  if c = ':' then if s.colons < 8 then some { plain with colons := s.colons + 1 } else none
  else if c = '[' then
    if s.percent || s.opened then none else some { plain with opened := true }
  else if c = ']' then
    if !s.opened || s.closed then none
    else some { plain with closed := true, colons := 0, percent := false }
  else if c = '@' then some { s with colons := 0, percent := false, atSign := true }
  else if c = '%' then some { plain with percent := true }
  else if isAuthorityChar c then some plain
  else none

/-- Whether an authority may end here: brackets in pairs, at most one colon,
something behind an at sign and no percent sign left. -/
def Seen.complete (s : Seen) : Bool :=
  s.opened == s.closed && s.colons ≤ 1 && !s.atSign && !s.percent

/-- What follows the authority at the front. -/
def authority? (s : Seen) : List Char → Option (List Char)
  | [] => if s.complete then some [] else none
  | c :: r =>
    if c = '/' ∨ c = '?' ∨ c = '#' then if s.complete then some (c :: r) else none
    else (s.take c).bind fun s => authority? s r

/-! ## Path and query -/

/-- A character of a path; those beyond ASCII are. -/
def isPathChar (c : Char) : Bool :=
  0x21 ≤ c.toNat && !"#<>?`".toList.contains c

/-- A character of a query. -/
def isQueryChar (c : Char) : Bool :=
  0x21 ≤ c.toNat && !"\"#<>".toList.contains c

def isQuery : List Char → Bool
  | [] => true
  | c :: r => c = '#' || (isQueryChar c && isQuery r)

def isPath : List Char → Bool
  | [] => true
  | c :: r => if c = '?' then isQuery r else c = '#' || (isPathChar c && isPath r)

/-! ## The whole -/

/-- How many bytes a URI may have. -/
def lengthLimit : Nat := 65534

/-- Whether a text that begins with http or https is a URI. -/
def isValid (s : String) : Bool :=
  let cs := s.toList
  let rest := (Text.dropLead? "http://".toList cs) <|> (Text.dropLead? "https://".toList cs)
  s.utf8ByteSize ≤ lengthLimit &&
    match rest with
    | none => false
    | some r =>
      match authority? {} r with
      | none => false
      | some path => path.length < r.length && isPath path

end Interpose.Net.Uri
