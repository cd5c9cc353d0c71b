/-
Interpose.Fork — the first moments of a new process.

    Spawned → ScopeQueried → ModulesFetched → HooksApplied → Running

A process asks the daemon once which modules are meant for it, looks the
answer over, applies what is left, and only then registers itself. From
each of the first three stages it may end as Skipped instead, and then
runs as if there were no modules at all.
-/
import Interpose.Apply
import Interpose.Fork.Link

namespace Interpose

inductive SkipReason where
  /-- Nothing is meant for this process. -/
  | noModules
  /-- The daemon did not answer, or not in time. -/
  | scopeUnreachable
  /-- The application runs already. -/
  | tooLate
  deriving DecidableEq, Repr

def SkipReason.name : SkipReason → String
  | noModules => "no_modules"
  | scopeUnreachable => "scope_unreachable"
  | tooLate => "too_late"

inductive ForkState where
  | spawned
  | scopeQueried
  | modulesFetched
  | hooksApplied
  | running
  | skipped (why : SkipReason)
  deriving DecidableEq, Repr

def ForkState.name : ForkState → String
  | spawned => "Spawned"
  | scopeQueried => "ScopeQueried"
  | modulesFetched => "ModulesFetched"
  | hooksApplied => "HooksApplied"
  | running => "Running"
  | skipped why => "Skipped(" ++ why.name ++ ")"

/-- What became of a new process. -/
structure ForkOutcome where
  state : ForkState
  /-- Every state it was in, in order; the last one is `state`. -/
  trail : List ForkState
  session : Option ProcessSession := none
  report : ApplyReport := {}
  registryVersion : UInt64 := 0
  /-- The registration to repeat, if the process is to stay known. -/
  keepalive : Option Registration := none
  deriving Repr

namespace ForkOutcome

def isRunning (o : ForkOutcome) : Bool := o.state == .running

def applied (o : ForkOutcome) : List String := o.session.elim [] (·.moduleIds)

/-- A process that was left alone after these stages. -/
def skip (stages : List ForkState) (why : SkipReason) (version : UInt64) : ForkOutcome where
  state := .skipped why
  trail := stages ++ [.skipped why]
  registryVersion := version

end ForkOutcome

/-- How the first moments end: as they should, or in a panic of the code
that loads a module. -/
inductive ForkEnd where
  | outcome (o : ForkOutcome)
  | unwound (message : Option String)
  deriving Repr

/-- Tells the daemon of each diagnostic in turn; a lost report is lost. -/
def Link.reportAll {σ : Type} (link : Link σ) (pid : UInt32) : List ModuleDiagnostic → σ → σ
  | [], s => s
  | d :: ds, s => link.reportAll pid ds (link.report pid d.moduleId d.diagnostic s).2

/-- The registration of a session. -/
def ProcessSession.registration (s : ProcessSession) : Registration where
  pid := s.pid
  app := some s.app
  moduleIds := s.moduleIds
  registryVersion := s.registryVersion
  failedModuleIds := s.failed

namespace Host

variable {ν σ : Type}

/-- Registers a process whose modules are applied, and reports what went wrong. -/
def announce (link : Link σ) (heartbeat : Bool) (session : ProcessSession) (report : ApplyReport)
    (s : σ) : ForkOutcome × σ :=
  let reg := session.registration
  let (session, s) := match link.register reg s with
    | (.ok token, s) => ({ session with token := some token }, s)
    | (.error _, s) => (session, s)
  let s := link.reportAll session.pid report.reportable s
  ({ state := .running
     trail := [.spawned, .scopeQueried, .modulesFetched, .hooksApplied, .running]
     session := some session
     report
     registryVersion := session.registryVersion
     keepalive := if heartbeat && !session.applied.isEmpty then some reg else none }, s)

/-- The first moments of a process, from its birth to its outcome. Its
application may start while the daemon is asked. -/
def forkFrom (link : Link σ) (source : Source ν σ) (startsMeanwhile : Bool) (heartbeat : Bool)
    (pid : UInt32) (app : AppDescriptor) (s : σ) (p : Host ν) : Ran ν (ForkEnd × σ) :=
  if p.appEntered then some ((.outcome (.skip [.spawned] .tooLate 0), s), p)
  else
    let asked := link.queryScope app s
    let s := asked.2
    let p := { p with appEntered := startsMeanwhile }
    match asked.1 with
    | .error _ => some ((.outcome (.skip [.spawned] .scopeUnreachable 0), s), p)
    | .ok answer =>
      let version := answer.registryVersion
      if answer.modules.isEmpty then
        some ((.outcome (.skip [.spawned, .scopeQueried] .noModules version), s), p)
      else
        let stages := [ForkState.spawned, .scopeQueried, .modulesFetched]
        let modules := answer.modules.filter (·.appliesTo app)
        if modules.isEmpty then some ((.outcome (.skip stages .noModules version), s), p)
        else
          (p.applyFrom source modules { pid, app, registryVersion := version } s).map fun
            | (((.tooLate, _), s), p) => ((.outcome (.skip stages .tooLate version), s), p)
            | (((.unwound message, _), s), p) => ((.unwound message, s), p)
            | (((.report report, session), s), p) =>
              let a := announce link heartbeat session report s
              ((.outcome a.1, a.2), p)

/-- The same with a loader, of an application that waits. -/
def fork (link : Link σ) (loader : Loader ν) (heartbeat : Bool) (pid : UInt32)
    (app : AppDescriptor) (s : σ) (p : Host ν) : Ran ν (ForkEnd × σ) :=
  forkFrom link loader.source false heartbeat pid app s p

end Host

end Interpose
