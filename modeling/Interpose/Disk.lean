/-
Interpose.Disk — the files and directories under one root.

A path is the list of names that leads from the root to an entry. Each
operation first walks that path: a name on the way that is missing or
belongs to a file stops it. An operation that fails changes nothing.
-/
namespace Interpose

abbrev Path := List String

/-- The path a text with slashes stands for; empty names and single points
stand for nothing. -/
def Path.ofText (s : String) : Path :=
  ((s.toList.splitOn '/').map String.ofList).filter fun n => n ≠ "" && n ≠ "."

inductive DiskEntry where
  | file (bytes : List UInt8)
  | dir
  deriving DecidableEq, Repr

inductive DiskFault where
  | notFound
  | alreadyExists
  | notADirectory
  | isADirectory
  | invalid
  | notEmpty
  /-- Whatever else a system may answer, with the kind of it and in its words;
  nothing here gives rise to it. -/
  | other (kind text : String)
  deriving DecidableEq, Repr

def DiskFault.message : DiskFault → String
  | notFound => "No such file or directory (os error 2)"
  | alreadyExists => "File exists (os error 17)"
  | notADirectory => "Not a directory (os error 20)"
  | isADirectory => "Is a directory (os error 21)"
  | invalid => "Invalid argument (os error 22)"
  | notEmpty => "Directory not empty (os error 39)"
  | other _ text => text

/-- A file could not be read or written. -/
inductive FileFault where
  | disk (e : DiskFault)
  /-- What was read is no text. -/
  | notText
  deriving DecidableEq, Repr

def FileFault.message : FileFault → String
  | disk e => e.message
  | notText => "stream did not contain valid UTF-8"

structure Disk where
  /-- How the root is written in front of a path. -/
  root : String := ""
  entries : List (Path × DiskEntry) := []
  deriving DecidableEq, Repr, Inhabited

namespace Disk

/-- A path as people see it. -/
def pathText (d : Disk) (p : Path) : String := d.root ++ String.join (p.map ("/" ++ ·))

/-- The path a text names, counted from the root. A text that begins with the
root's own name is understood. -/
def locate (d : Disk) (s : String) : Path :=
  let cs := s.toList
  let root := d.root.toList
  Path.ofText (if root.isPrefixOf cs then String.ofList (cs.drop root.length) else s)

/-! ## Looking -/

/-- The entry at a path, whatever is above it. The root is always there. -/
def entry? (d : Disk) (p : Path) : Option DiskEntry :=
  if p.isEmpty then some .dir else d.entries.lookup p

/-- The directories a path leads through, the outermost first. -/
def above (p : Path) : List Path := (List.range p.length).map p.take

/-- Whether every name on the way to a path is that of a directory. -/
def walk (d : Disk) (p : Path) : Except DiskFault Unit :=
  (above p).forM fun q =>
    match d.entry? q with
    | some .dir => .ok ()
    | some (.file _) => .error .notADirectory
    | none => .error .notFound

/-- The entry at a path that can be walked. -/
def find (d : Disk) (p : Path) : Except DiskFault (Option DiskEntry) :=
  (d.walk p).map fun _ => d.entry? p

def read (d : Disk) (p : Path) : Except DiskFault (List UInt8) := do
  match ← d.find p with
  | some (.file bytes) => .ok bytes
  | some .dir => .error .isADirectory
  | none => .error .notFound

/-- The paths strictly below a path. -/
def below (d : Disk) (p : Path) : List Path :=
  (d.entries.map (·.1)).filter fun q => p.isPrefixOf q && p.length < q.length

/-- Reads a file that must hold text. -/
def readText (d : Disk) (p : Path) : Except FileFault String :=
  match d.read p with
  | .error e => .error (.disk e)
  | .ok bytes => (String.fromUTF8? bytes.toByteArray).elim (.error .notText) .ok

/-! ## Changing -/

def put (d : Disk) (p : Path) (e : DiskEntry) : Disk :=
  { d with entries := (p, e) :: d.entries.filter (·.1 != p) }

/-- Takes away whatever is at a path and below it. -/
def drop (d : Disk) (p : Path) : Disk :=
  { d with entries := d.entries.filter fun e => !p.isPrefixOf e.1 }

/-- Puts a file where there is a file or nothing. -/
def write (d : Disk) (p : Path) (bytes : List UInt8) : Except DiskFault Disk := do
  match ← d.find p with
  | some .dir => .error .isADirectory
  | _ => .ok (d.put p (.file bytes))

/-- Makes a directory and those above it, where there are none yet. -/
def makeDirs (d : Disk) (p : Path) : Except DiskFault Disk :=
  let isFile (q : Path) : Bool := match d.entry? q with
    | some (.file _) => true
    | _ => false
  if (above p).any isFile then .error .notADirectory
  else if isFile p then .error .alreadyExists
  else .ok ((above p ++ [p]).foldl
    (fun d q => if (d.entry? q).isSome then d else d.put q .dir) d)

/-- Moves an entry, with all below it, to another place, which must not be
below it. A file takes the place of a file; a directory takes that of an
empty directory. -/
def rename (d : Disk) (source target : Path) : Except DiskFault Disk := do
  let some moved ← d.find source | .error .notFound
  let old ← d.find target
  if source = target then .ok d
  else if source.isPrefixOf target then .error .invalid
  else match moved, old with
    | .file _, some .dir => .error .isADirectory
    | .file bytes, _ => .ok ((d.drop source).put target (.file bytes))
    | .dir, some (.file _) => .error .notADirectory
    | .dir, _ =>
      if (d.below target).isEmpty then
        let kept := (d.drop source).drop target
        let carried := (d.entries.filter fun e => source.isPrefixOf e.1).map fun e =>
          (target ++ e.1.drop source.length, e.2)
        .ok { kept with entries := carried ++ kept.entries }
      else .error .notEmpty

/-- Takes away a file. -/
def remove (d : Disk) (p : Path) : Except DiskFault Disk := do
  match ← d.find p with
  | some (.file _) => .ok (d.drop p)
  | some .dir => .error .isADirectory
  | none => .error .notFound

end Disk

end Interpose
