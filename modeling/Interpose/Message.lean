/-
Interpose.Message — what processes, the daemon and its clients say to each
other.

The first half are the records that several messages share, the second
half the calls of the two services, each with its answer. Every answer
that depends on the registry carries the registry's version, so that a
caller can tell two states apart.
-/
import Interpose.Module
import Interpose.Diagnostic
import Interpose.Time.Timestamp

namespace Interpose

/-! ## Shared records -/

/-- One row of the diagnostic log. -/
structure LogEntry where
  id : Int64 := 0
  ts : Option Timestamp := none
  pid : UInt32 := 0
  moduleId : String := ""
  event : Int32 := 0
  detail : String := ""
  deriving DecidableEq, Repr, Inhabited

/-- What the daemon tells about one process that carries modules. -/
structure SessionSummary where
  pid : UInt32 := 0
  app : Option AppDescriptor := none
  moduleIds : List String := []
  registryVersion : UInt64 := 0
  registeredAt : Option Timestamp := none
  lastSeen : Option Timestamp := none
  /-- Modules the process carries and would not be given now. -/
  staleModuleIds : List String := []
  failedModuleIds : List String := []
  deriving DecidableEq, Repr, Inhabited

/-! ## What a process asks -/

/-- Which modules are meant for me? -/
structure ScopeQuery where
  app : Option AppDescriptor := none
  deriving DecidableEq, Repr, Inhabited

/-- The modules in scope, in order of application. -/
structure ScopeAnswer where
  registryVersion : UInt64 := 0
  modules : List ModuleInfo := []
  deriving DecidableEq, Repr, Inhabited

/-- I carry these modules, and could not carry those. -/
structure Registration where
  pid : UInt32 := 0
  app : Option AppDescriptor := none
  moduleIds : List String := []
  registryVersion : UInt64 := 0
  failedModuleIds : List String := []
  deriving DecidableEq, Repr, Inhabited

structure RegistrationAnswer where
  livenessToken : String := ""
  registryVersion : UInt64 := 0
  deriving DecidableEq, Repr, Inhabited

structure FailureReport where
  pid : UInt32 := 0
  moduleId : String := ""
  diagnostic : Option Diagnostic := none
  deriving DecidableEq, Repr, Inhabited

structure Ack where
  registryVersion : UInt64 := 0
  deriving DecidableEq, Repr, Inhabited

structure Heartbeat where
  pid : UInt32 := 0
  livenessToken : String := ""
  deriving DecidableEq, Repr, Inhabited

/-- `known` is false when the daemon has no record of the session. -/
structure HeartbeatAnswer where
  known : Bool := false
  registryVersion : UInt64 := 0
  deriving DecidableEq, Repr, Inhabited

/-! ## What a client asks -/

structure SessionList where
  registryVersion : UInt64 := 0
  sessions : List SessionSummary := []
  deriving DecidableEq, Repr, Inhabited

structure RegistryListing where
  registryVersion : UInt64 := 0
  modules : List ModuleInfo := []
  deriving DecidableEq, Repr, Inhabited

structure ModuleRef where
  moduleId : String := ""
  deriving DecidableEq, Repr, Inhabited

/-- The mode travels as a number, which need not be one anybody knows. -/
structure ScopeEdit where
  moduleId : String := ""
  mode : Int32 := 0
  scope : Option WireScope := none
  deriving DecidableEq, Repr, Inhabited

structure PriorityEdit where
  moduleId : String := ""
  priority : Int32 := 0
  deriving DecidableEq, Repr, Inhabited

/-- A change of the registry. -/
inductive MutationOp where
  | install (m : ModuleInfo)
  | uninstall (r : ModuleRef)
  | enable (r : ModuleRef)
  | disable (r : ModuleRef)
  | setScope (e : ScopeEdit)
  | setPriority (e : PriorityEdit)
  deriving DecidableEq, Repr

structure MutationRequest where
  op : Option MutationOp := none
  deriving DecidableEq, Repr, Inhabited

structure MutationAnswer where
  registryVersion : UInt64 := 0
  /-- The module as it now is; absent once it is uninstalled. -/
  touched : Option ModuleInfo := none
  deriving DecidableEq, Repr, Inhabited

structure WatchRequest where
  /-- Whether log entries are wanted too. -/
  includeLog : Bool := false
  deriving DecidableEq, Repr, Inhabited

inductive WatchItem where
  | registryVersion (v : UInt64)
  | log (e : LogEntry)
  deriving DecidableEq, Repr

structure WatchEvent where
  event : Option WatchItem := none
  deriving DecidableEq, Repr, Inhabited

/-- A limit of nought leaves it to the daemon. -/
structure LogQuery where
  limit : UInt32 := 0
  sinceId : Int64 := 0
  deriving DecidableEq, Repr, Inhabited

structure LogPage where
  entries : List LogEntry := []
  deriving DecidableEq, Repr, Inhabited

structure DaemonStatus where
  daemonVersion : String := ""
  registryVersion : UInt64 := 0
  moduleCount : UInt32 := 0
  enabledCount : UInt32 := 0
  sessionCount : UInt32 := 0
  /-- Not empty while the daemon runs on a registry it could not load. -/
  registryWarning : String := ""
  startedAt : Option Timestamp := none
  deriving DecidableEq, Repr, Inhabited

/-- A question without content: for the sessions, the registry or the status. -/
structure Ask where
  deriving DecidableEq, Repr, Inhabited

end Interpose
