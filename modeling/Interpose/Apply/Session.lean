/-
Interpose.Apply.Session — what one process carries.
-/
import Interpose.Host.Hooks
import Interpose.App
import Interpose.Text.Quoted

namespace Interpose

/-- A module whose callback completed, with the layers it left behind. -/
structure AppliedModule where
  moduleId : String
  priority : Int32
  handles : List HookHandle
  deriving DecidableEq, Repr, Inhabited

/-- The record a process keeps of itself. -/
structure ProcessSession where
  pid : UInt32
  app : AppDescriptor
  /-- In order of application. -/
  applied : List AppliedModule := []
  /-- The modules that were dropped, each once. -/
  failed : List String := []
  registryVersion : UInt64 := 0
  /-- The token the daemon knows this session by, once it has given one. -/
  token : Option String := none
  deriving DecidableEq, Repr, Inhabited

namespace ProcessSession

def moduleIds (s : ProcessSession) : List String := s.applied.map (·.moduleId)

def isApplied (s : ProcessSession) (id : String) : Bool := s.applied.any (·.moduleId == id)

def hookCount (s : ProcessSession) : Nat := (s.applied.flatMap (·.handles)).length

def pushApplied (s : ProcessSession) (m : AppliedModule) : ProcessSession :=
  { s with applied := s.applied ++ [m] }

def pushFailed (s : ProcessSession) (id : String) : ProcessSession :=
  if s.failed.contains id then s else { s with failed := s.failed ++ [id] }

/-- Takes an applied module's layers out of the process again; answers
whether it was applied. -/
def removeModule {ν : Type} (s : ProcessSession) (id : String) (p : Host ν) :
    Bool × ProcessSession × Host ν :=
  match s.applied.find? (·.moduleId == id) with
  | none => (false, s, p)
  | some m => (true, { s with applied := s.applied.eraseP (·.moduleId == id) }, (p.removeAll m.handles).2)

/-- A list of quoted texts in square brackets. -/
def quotedList (xs : List String) : String :=
  "[" ++ ", ".intercalate (xs.map Text.quoted) ++ "]"

/-- A one-line account of a session. -/
def account (s : ProcessSession) : String :=
  "ProcessSession \x7b pid: " ++ toString s.pid.toNat ++ ", app: " ++ Text.quoted s.app.appId
    ++ ", applied: " ++ quotedList s.moduleIds ++ ", failed: " ++ quotedList s.failed
    ++ ", registry_version: " ++ toString s.registryVersion.toNat ++ " \x7d"

end ProcessSession

/-- A one-line account of a hook table, from its two sizes. -/
def HookTable.account (methods layers : Nat) : String :=
  "HookTable \x7b methods: " ++ toString methods ++ ", layers: " ++ toString layers ++ " \x7d"

end Interpose
