/-
Interpose.Registry.Store — the registry's file.

The file holds a document and a tag of it, made with a key. On loading, the
document that was read is written down again in the one canonical way, and
the tag must be that text's: so the layout of the file does not matter, and
what it says cannot be changed without the key.
-/
import Interpose.Registry.Document
import Interpose.Registry.Shape
import Interpose.Json.Parser
import Interpose.Digest.Hmac
import Interpose.Disk

namespace Interpose.Registry

/-- Where the file is, and how texts are tagged. The tag may be any function:
what is said about stores in general does not depend on it. -/
structure Store where
  path : Path
  tag : List UInt8 → String

namespace Store

/-- A store whose tags are made with a key. -/
def withKey (path : Path) (key : String) : Store where
  path := path
  tag text := Text.Hex.ofBytes (Digest.hmac key.toUTF8.toList text)

end Store

inductive StoreFault where
  | io (e : DiskFault)
  /-- The content is no signed document; `reason` tells what the reader met. -/
  | malformed (reason : String)
  | signatureMismatch
  deriving DecidableEq, Repr

def StoreFault.message : StoreFault → String
  | io e => "registry I/O error: " ++ e.message
  | malformed reason => "registry document is not valid JSON: " ++ reason
  | signatureMismatch => "registry signature mismatch"

/-! ## The content of the file -/

/-- A document with a tag, as it is written down. -/
def sealedJson (d : Document) (signature : String) : Json :=
  .record [("data", d.toJson), ("signature", .str signature)]

/-- A document with a tag, which may be any text. -/
def sealedOfJson? (j : Json) : Option (Document × String) :=
  match j.fields? ["data", "signature"] with
  | some [data, signature] => do
    return (← Json.needed (Document.ofJson? 1) data, ← Json.needed Json.text? signature)
  | _ => none

namespace Store

/-- The file that is written for a document. -/
def encode (s : Store) (d : Document) : List UInt8 :=
  (sealedJson d (s.tag d.canonical)).render

/-- The document in a file, if its tag is right. -/
def decode (s : Store) (bytes : List UInt8) : Except StoreFault Document :=
  match (Json.parse bytes).bind sealedOfJson? with
  | none => .error (.malformed (complaint bytes))
  | some (d, signature) =>
    if s.tag d.canonical = signature then .ok d else .error .signatureMismatch

/-! ## Loading, saving, setting aside -/

/-- The document in the store; nothing if there is no file. -/
def load (s : Store) (disk : Disk) : Except StoreFault (Option Document) :=
  match disk.read s.path with
  | .error .notFound => .ok none
  | .error e => .error (.io e)
  | .ok bytes => (s.decode bytes).map some

/-- Puts a document in the place of whatever file is there, all at once. -/
def save (s : Store) (d : Document) (disk : Disk) : Except StoreFault Unit × Disk :=
  match disk.makeDirs s.path.dropLast with
  | .error e => (.error (.io e), disk)
  | .ok disk =>
    match disk.write s.path (s.encode d) with
    | .error e => (.error (.io e), disk)
    | .ok disk => (.ok (), disk)

/-- The place for a file that cannot be read, beside the store's own. -/
def asidePath (s : Store) : Path :=
  s.path.dropLast ++ [s.path.getLastD "" ++ ".corrupt"]

/-- Moves the file out of the way. -/
def quarantine (s : Store) (disk : Disk) : Except DiskFault Disk :=
  disk.rename s.path s.asidePath

end Store

end Interpose.Registry
