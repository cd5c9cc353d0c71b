/-
Interpose.Toml.Value — documents of tables, and how they grow.

A document is built line by line. Each table remembers how it came to be,
for that decides what may still be added to it: a header may open a table
that only longer headers have implied, but no other; a dotted key may add
to tables that dotted keys made, and pass through implied ones; a table
written in braces is closed. Nothing is ever replaced.
-/
namespace Interpose

/-- How a table came to be. -/
inductive Toml.Origin where
  /-- By its own header. -/
  | header
  /-- By a longer header that leads through it. -/
  | implied
  /-- By a dotted key that leads through it. -/
  | dotted
  /-- Written in braces. -/
  | inline
  deriving DecidableEq, Repr

inductive Toml where
  | text (s : String)
  | whole (n : Int)
  | real
  | truth (b : Bool)
  /-- A date, a time or both. -/
  | moment
  | array (items : List Toml)
  /-- The tables of one repeated header. -/
  | tables (rows : List Toml)
  | table (origin : Toml.Origin) (members : List (String × Toml))
  deriving Repr, Inhabited

namespace Toml

abbrev Members := List (String × Toml)

/-- Puts a value under a key that is there. -/
def replace (k : String) (v : Toml) (ms : Members) : Members :=
  ms.map fun m => if m.1 = k then (k, v) else m

/-- Puts a value under a key that is not there yet. -/
def addFresh (k : String) (v : Toml) (ms : Members) : Option Members :=
  if (ms.lookup k).isSome then none else some (ms ++ [(k, v)])

/-- Changes the last of a list of tables. -/
def inLastRow (f : Members → Option Members) (rows : List Toml) : Option (List Toml) :=
  match rows.reverse with
  | .table o ms :: before => (f ms).map fun ms => (Toml.table o ms :: before).reverse
  | _ => none

/-- Adds under a dotted key. The table that takes the value must have been
made by a dotted key, unless there is no dot. -/
def addDotted (key : String) (v : Toml) : List String → Members → Option Members
  | [], ms => addFresh key v ms
  | k :: ks, ms =>
    match ms.lookup k with
    | none => (addDotted key v ks []).map fun inner => ms ++ [(k, .table .dotted inner)]
    | some (.table .dotted inner) =>
      (addDotted key v ks inner).map fun inner => replace k (.table .dotted inner) ms
    | some (.table .implied inner) =>
      if ks.isEmpty then none
      else (addDotted key v ks inner).map fun inner => replace k (.table .implied inner) ms
    | some (.tables rows) =>
      if ks.isEmpty then none
      else (inLastRow (addDotted key v ks) rows).map fun rows => replace k (.tables rows) ms
    | some _ => none

/-- Changes the table at the end of a path of headers; tables on the way that
are missing come to be. A repeated header leads into its last table. -/
def within (f : Members → Option Members) : List String → Members → Option Members
  | [], ms => f ms
  | k :: ks, ms =>
    match ms.lookup k with
    | none => (within f ks []).map fun inner => ms ++ [(k, .table .implied inner)]
    | some (.table o inner) =>
      if o = .inline then none
      else (within f ks inner).map fun inner => replace k (.table o inner) ms
    | some (.tables rows) =>
      (inLastRow (within f ks) rows).map fun rows => replace k (.tables rows) ms
    | some _ => none

/-- Opens a table by its header. -/
def openTable (k : String) (ms : Members) : Option Members :=
  match ms.lookup k with
  | none => some (ms ++ [(k, .table .header [])])
  | some (.table .implied inner) => some (replace k (.table .header inner) ms)
  | some _ => none

/-- Opens one more table of a repeated header. -/
def openRow (k : String) (ms : Members) : Option Members :=
  match ms.lookup k with
  | none => some (ms ++ [(k, .tables [.table .header []])])
  | some (.tables rows) => some (replace k (.tables (rows ++ [.table .header []])) ms)
  | some _ => none

end Toml

end Interpose
