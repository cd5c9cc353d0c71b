/-
Interpose.Control.Error — how a command fails, and what it exits with.
-/
import Interpose.Status
import Interpose.Disk

namespace Interpose.Control

/-! ## Exit codes -/

inductive ExitCode where
  | noError
  | usage
  | emptyScope
  | enableDisable
  | setScope
  | lsScope
  | remoteError
  | noDaemon
  deriving DecidableEq, Repr, Inhabited

namespace ExitCode

def number : ExitCode → Nat
  | noError => 0
  | usage => 1
  | emptyScope => 2
  | enableDisable => 3
  | setScope => 4
  | lsScope => 5
  | remoteError => 6
  | noDaemon => 7

def name : ExitCode → String
  | noError => "NoError"
  | usage => "Usage"
  | emptyScope => "EmptyScope"
  | enableDisable => "EnableDisable"
  | setScope => "SetScope"
  | lsScope => "LsScope"
  | remoteError => "RemoteError"
  | noDaemon => "NoDaemon"

def text (c : ExitCode) : String := c.name ++ "(" ++ toString c.number ++ ")"

end ExitCode

/-! ## Failures -/

inductive Failure where
  /-- Nobody answers at the endpoint. -/
  | noDaemon (endpoint reason : String)
  | remote (status : Status)
  | usage (message : String)
  | emptyScope (moduleId : String)
  | enableDisable (message : String)
  | setScope (message : String)
  | lsScope (message : String)
  | backup (message : String)
  | file (e : FileFault)
  deriving DecidableEq, Repr

namespace Failure

def message : Failure → String
  | noDaemon endpoint reason => "daemon not reachable at " ++ endpoint ++ ": " ++ reason
  | remote s => "daemon error: " ++ s.message
  | usage m => m
  | emptyScope id => "scope of " ++ id ++ " is empty, not enabled"
  | enableDisable m => m
  | setScope m => m
  | lsScope m => m
  | backup m => "backup: " ++ m
  | file e => e.message

/-- A daemon that is not available counts as one that is not there. -/
def code : Failure → ExitCode
  | noDaemon _ _ => .noDaemon
  | remote s => if s.code = .unavailable then .noDaemon else .remoteError
  | usage _ => .usage
  | emptyScope _ => .emptyScope
  | enableDisable _ => .enableDisable
  | setScope _ => .setScope
  | lsScope _ => .lsScope
  | backup _ => .remoteError
  | file _ => .remoteError

end Failure

end Interpose.Control
