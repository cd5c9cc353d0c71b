/-
Interpose.Registry.Document — the registry at one moment.

A document holds every module under its key and two numbers: the version,
which counts the changes that succeeded, and the last install number given
out. Both are words of 64 bits.
-/
import Interpose.Keyed
import Interpose.Registry.Written

namespace Interpose.Registry

structure Document where
  version : UInt64 := 0
  nextSeq : UInt64 := 0
  modules : Keyed Module := {}
  deriving DecidableEq, Inhabited

namespace Document

/-! ## Looking -/

def get? (d : Document) (id : String) : Option Module := d.modules.get? id

/-- The modules meant for a process, in the order of application. -/
def applicable (d : Document) (app : AppDescriptor) : List Module :=
  Module.inOrder (d.modules.values.filter (·.appliesTo app))

def enabledCount (d : Document) : Nat := (d.modules.values.filter (·.enabled)).length

/-- Of these modules, those the process would not be given now. -/
def stale (d : Document) (app : AppDescriptor) (ids : List String) : List String :=
  ids.filter fun id => !(d.get? id).any (·.appliesTo app)

/-! ## Writing and reading -/

def toJson (d : Document) : Json :=
  .record [("version", .int d.version.toNat), ("next_seq", .int d.nextSeq.toNat),
    ("modules", .record (d.modules.entries.map fun e => (e.1, e.2.toJson)))]

/-- Modules under their keys; of equal keys the last one counts. -/
def modulesOfJson? (depth : Nat) : Json → Option (Keyed Module)
  | .object members =>
    let entry (m : Option String × Json) : Option (String × Module) :=
      m.1.bind fun k => (Module.ofJson? (depth + 1) m.2).map (k, ·)
    (members.mapM entry).map Keyed.ofList
  | _ => none

/-- A document that `depth` arrays and objects enclose. -/
def ofJson? (depth : Nat) (j : Json) : Option Document :=
  match j.fields? ["version", "next_seq", "modules"] with
  | some [version, nextSeq, modules] => do
    return {
      version := ← Json.needed Json.uint64? version
      nextSeq := ← Json.needed Json.uint64? nextSeq
      modules := ← Json.needed (modulesOfJson? (depth + 1)) modules }
  | _ => none

/-- The one way a document is written down. -/
def canonical (d : Document) : List UInt8 := d.toJson.render

end Document

end Interpose.Registry
