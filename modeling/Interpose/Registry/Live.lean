/-
Interpose.Registry.Live — the registry as the daemon holds it.

There is always a registry: a store that cannot be read is moved aside and
the registry starts empty, with a warning. A change counts only once it is
on disk: the next document is saved first, then takes the place of the
current one, and then its version is told to everybody who listens.
-/
import Interpose.Registry.Mutation
import Interpose.Registry.Store
import Interpose.Broadcast

namespace Interpose.Registry

/-- How many versions are remembered for those who listen. -/
def bumpCapacity : Nat := 64

/-- A store that could not be read, and whether it was moved aside. -/
structure Warning where
  fault : StoreFault
  /-- Where the file is now, as people see it, or why it is still in place. -/
  moved : Except DiskFault String

def Warning.text (w : Warning) : String :=
  let fate := match w.moved with
    | .ok path => "moved to " ++ path
    | .error e => "could not be moved aside: " ++ e.message
  "registry store unreadable (" ++ w.fault.message ++ "); " ++ fate ++ "; started empty"

structure Live where
  current : Document := {}
  warning : Option Warning := none
  bumps : Broadcast UInt64 := { capacity := bumpCapacity }

instance : Inhabited Live := ⟨{}⟩

/-- Why a change did not happen. -/
inductive MutationFault where
  | refused (why : Refusal)
  | persist (e : StoreFault)
  deriving DecidableEq, Repr

def MutationFault.message : MutationFault → String
  | refused why => why.message
  | persist e => "failed to persist registry: " ++ e.message

/-- A change that happened: the version it made, and the module concerned
as it now is, unless it is gone. -/
structure MutationOutcome where
  version : UInt64
  touched : Option Module
  deriving DecidableEq, Repr

namespace Live

/-- Opens the registry over its store, where `aside` moves a file that
cannot be read out of the way. -/
def startWith (aside : Disk → Except DiskFault Disk) (s : Store) (disk : Disk) : Live × Disk :=
  match s.load disk with
  | .ok (some d) => ({ current := d }, disk)
  | .ok none => ({}, disk)
  | .error fault =>
    match aside disk with
    | .ok disk => ({ warning := some { fault, moved := .ok (disk.pathText s.asidePath) } }, disk)
    | .error e => ({ warning := some { fault, moved := .error e } }, disk)

/-- Opens the registry over its store. -/
def start (s : Store) (disk : Disk) : Live × Disk :=
  startWith s.quarantine s disk

/-- What a change answers once its document is in place. -/
def outcome (m : Mutation) (d : Document) : MutationOutcome where
  version := d.version
  touched := d.get? m.moduleId

/-- Makes a change, saves it with `save` and lets it count. -/
def mutateWith (save : Document → Disk → Except StoreFault Unit × Disk) (m : Mutation) (r : Live)
    (disk : Disk) : Except MutationFault MutationOutcome × Live × Disk :=
  match r.current.next m with
  | .error why => (.error (.refused why), r, disk)
  | .ok next =>
    match save next disk with
    | (.error e, disk) => (.error (.persist e), r, disk)
    | (.ok (), disk) =>
      (.ok (outcome m next), { r with current := next, bumps := r.bumps.send next.version }, disk)

/-- Makes a change in a store. -/
def mutate (s : Store) (m : Mutation) (r : Live) (disk : Disk) :
    Except MutationFault MutationOutcome × Live × Disk :=
  mutateWith s.save m r disk

end Live

end Interpose.Registry
