/-
Interpose.Script.Link — a link that answers from a script and keeps a list
of what it was asked.
-/
import Interpose.Fork

namespace Interpose.Script

/-- The kinds of failure a script can call for. -/
inductive LinkFault where
  | timeout
  | invalid
  | rpc
  | runtime
  deriving DecidableEq, Repr

namespace LinkFault

def name : LinkFault → String
  | timeout => "timeout"
  | invalid => "invalid"
  | rpc => "rpc"
  | runtime => "runtime"

def ofName? (s : String) : Option LinkFault := [timeout, invalid, rpc, runtime].find? (·.name == s)

def error : LinkFault → LinkError
  | timeout => .timeout
  | invalid => .invalid ""
  | rpc => .refused
  | runtime => .setup

end LinkFault

/-- One call that was made, with the script's name for its answer. -/
inductive LinkCall where
  | queryScope (app : AppDescriptor)
  | register (answer : String) (reg : Registration)
  | report (pid : UInt32) (moduleId : String) (d : Diagnostic)
  | heartbeat (pid : UInt32) (token : String) (answer : String)
  deriving Repr

/-- The rest of a script, and the calls so far. -/
structure LinkScript where
  scope : Except LinkFault ScopeAnswer := .ok {}
  /-- Answers to registrations, in turn; after them all succeed. -/
  registers : List (Option LinkFault) := []
  /-- Answers to heartbeats, in turn; after them the session is known. -/
  heartbeats : List (Except LinkFault Bool) := []
  reportFault : Option LinkFault := none
  issued : Nat := 0
  calls : List LinkCall := []

namespace LinkScript

def log (s : LinkScript) (c : LinkCall) : LinkScript := { s with calls := s.calls ++ [c] }

/-- The link a script describes. Successful registrations get `token-1`,
`token-2` and so on; heartbeats after the script's last are not recorded. -/
def link : Link LinkScript where
  queryScope app s :=
    (s.scope.mapError (·.error), s.log (.queryScope app))
  register reg s :=
    match s.registers with
    | some f :: rest =>
      (.error f.error, { s.log (.register f.name reg) with registers := rest })
    | _ =>
      let n := s.issued + 1
      (.ok ("token-" ++ toString n),
        { s.log (.register "ok" reg) with registers := s.registers.tail, issued := n })
  report pid id d s :=
    (s.reportFault.elim (.ok ()) fun f => .error f.error, s.log (.report pid id d))
  heartbeat pid token s :=
    match s.heartbeats with
    | [] => (.ok true, s)
    | .ok known :: rest =>
      (.ok known,
        { s.log (.heartbeat pid token (if known then "known" else "unknown")) with heartbeats := rest })
    | .error f :: rest =>
      (.error f.error, { s.log (.heartbeat pid token f.name) with heartbeats := rest })

/-- Beats until the script's heartbeats are used up and a token is held.
Each beat uses up an answer of the script or gets a token, so their number
bounds the beats. -/
def beatAll (reg : Registration) (token : Option String) (s : LinkScript) :
    Option String × LinkScript :=
  go (s.registers.length + s.heartbeats.length + 1) token s
where
  go : Nat → Option String → LinkScript → Option String × LinkScript
    | 0, token, s => (token, s)
    | n + 1, token, s =>
      if s.heartbeats.isEmpty && token.isSome then (token, s)
      else
        let (token, s) := link.beat reg token s
        go n token s

end LinkScript

end Interpose.Script
