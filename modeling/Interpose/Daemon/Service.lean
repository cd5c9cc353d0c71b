/-
Interpose.Daemon.Service — the calls the daemon answers.

Processes ask four of them: which modules are meant for them, and three
that keep the daemon's table of sessions. Clients ask the rest. What only
looks is a function of the daemon; what may change it answers the daemon
as it is afterwards. A call that fails leaves it as it was.
-/
import Interpose.Daemon.State
import Interpose.Status

namespace Interpose

open Registry (Mutation MutationFault)

/-! ## Faults -/

/-- Why a call is not answered. -/
inductive CallFault where
  | missingApp
  | missingDiagnostic
  | missingOperation
  | missingModuleId
  | unknownScopeMode (code : Int32)
  | missingScope
  | mutation (e : MutationFault)
  /-- The log has lost its table. -/
  | unreadableLog
  deriving DecidableEq, Repr

namespace CallFault

def message : CallFault → String
  | missingApp => "missing app descriptor"
  | missingDiagnostic => "missing diagnostic"
  | missingOperation => "missing operation"
  | missingModuleId => "missing module id"
  | unknownScopeMode code => "unknown scope mode " ++ toString code.toInt
  | missingScope => "missing scope"
  | mutation e => e.message
  | unreadableLog => "no such table: diagnostics"

def code : CallFault → StatusCode
  | mutation (.refused (.unknownModule _)) => .notFound
  | mutation (.persist _) => .internal
  | unreadableLog => .internal
  | _ => .invalidArgument

def status (e : CallFault) : Status := { code := e.code, message := e.message }

end CallFault

namespace Daemon

/-! ## Calls of processes -/

/-- An application without an id is none. -/
def neededApp : Option AppDescriptor → Except CallFault AppDescriptor
  | some app => if app.appId.isEmpty then .error .missingApp else .ok app
  | none => .error .missingApp

def version (d : Daemon) : UInt64 := d.registry.current.version

/-- The modules meant for a process, all from the registry at one moment. -/
def queryScope (q : ScopeQuery) (d : Daemon) : Except CallFault ScopeAnswer :=
  (neededApp q.app).map fun app =>
    { registryVersion := d.version
      modules := (d.registry.current.applicable app).map Module.toInfo }

/-- What the log says of a process that registered. -/
def arrival (ts : DateTime) (app : AppDescriptor) (r : Registration) : Event where
  ts := ts
  pid := r.pid
  kind := .sessionRegistered
  detail := app.appId ++ " with " ++ toString r.moduleIds.length ++ " module(s)"

def registerSession (r : Registration) (d : Daemon) : Except CallFault RegistrationAnswer × Daemon :=
  match neededApp r.app with
  | .error e => (.error e, d)
  | .ok app =>
    let (token, tokens) := d.tokens.next
    let d := { d with tokens, sessions := d.sessions.register token d.clock app r }
    (.ok { livenessToken := token, registryVersion := d.version }, d.publish (arrival d.now app r))

/-- A report counts whether or not the daemon knows the process. -/
def reportFailure (r : FailureReport) (d : Daemon) : Except CallFault Ack × Daemon :=
  match r.diagnostic with
  | none => (.error .missingDiagnostic, d)
  | some diagnostic =>
    let d := { d with sessions := d.sessions.recordFailure r.pid r.moduleId }
    (.ok { registryVersion := d.version }, d.publish (.reported d.now r.pid r.moduleId diagnostic))

def heartbeat (h : Heartbeat) (d : Daemon) : HeartbeatAnswer × Daemon :=
  let (known, sessions) := d.sessions.heartbeat d.clock h.pid h.livenessToken
  ({ known, registryVersion := d.version }, { d with sessions })

/-! ## Changing the registry -/

def neededId (id : String) : Except CallFault String :=
  if id.isEmpty then .error .missingModuleId else .ok id

/-- The change a request asks for. Only an install may leave its id out here:
whether a module is fit to be installed, the registry decides. Of a scope
edit the mode is looked at first, then the scope, then the id. -/
def mutationOf : MutationOp → Except CallFault Mutation
  | .install m => .ok (.install (.ofInfo m))
  | .uninstall r => (neededId r.moduleId).map .uninstall
  | .enable r => (neededId r.moduleId).map .enable
  | .disable r => (neededId r.moduleId).map .disable
  | .setScope e => do
    let mode ← (ScopeMode.ofCode? e.mode).elim (.error (.unknownScopeMode e.mode)) .ok
    let scope ← e.scope.elim (.error .missingScope) .ok
    let id ← neededId e.moduleId
    .ok (.setScope id mode (.ofWire scope))
  | .setPriority e => (neededId e.moduleId).map (.setPriority · e.priority)

/-- What the log says of a change that happened. -/
def changed (ts : DateTime) (m : Mutation) (version : UInt64) : Event where
  ts := ts
  moduleId := m.moduleId
  kind := .registryMutated
  detail := m.verb ++ " " ++ m.moduleId ++ " -> v" ++ toString version.toNat

/-- Makes a change that has been understood, and saves it with `save`. -/
def mutateWith (save : Registry.Document → Disk → Except Registry.StoreFault Unit × Disk)
    (m : Mutation) (d : Daemon) : Except CallFault MutationAnswer × Daemon :=
  match d.registry.mutateWith save m d.disk with
  | (.error e, registry, disk) => (.error (.mutation e), { d with registry, disk })
  | (.ok o, registry, disk) =>
    (.ok { registryVersion := o.version, touched := o.touched.map Module.toInfo },
      { d with registry, disk }.publish (changed d.now m o.version))

/-- Answers a request for a change, which is saved with `save`. -/
def mutateRegistryWith (save : Registry.Document → Disk → Except Registry.StoreFault Unit × Disk)
    (r : MutationRequest) (d : Daemon) : Except CallFault MutationAnswer × Daemon :=
  match r.op.elim (.error .missingOperation) mutationOf with
  | .error e => (.error e, d)
  | .ok m => d.mutateWith save m

/-- Answers a request for a change of the registry in the store. -/
def mutateRegistry (r : MutationRequest) (d : Daemon) : Except CallFault MutationAnswer × Daemon :=
  d.mutateRegistryWith d.store.save r

/-! ## What clients look at -/

def listSessions (d : Daemon) : SessionList where
  registryVersion := d.version
  sessions := d.sessions.summaries d.registry.current

/-- Every module, in the order of the ids. -/
def getRegistry (d : Daemon) : RegistryListing where
  registryVersion := d.version
  modules := d.registry.current.modules.values.map Module.toInfo

/-- Reads what has been written of the log. -/
def readLog (q : LogQuery) (d : Daemon) : Except CallFault LogPage :=
  match d.writer.behind.table with
  | none => .error .unreadableLog
  | some t => .ok { entries := t.read q.limit q.sinceId }

def status (d : Daemon) : DaemonStatus where
  daemonVersion := Defaults.daemonVersion
  registryVersion := d.version
  moduleCount := UInt32.ofNat d.registry.current.modules.size
  enabledCount := UInt32.ofNat d.registry.current.enabledCount
  sessionCount := UInt32.ofNat d.sessions.size
  registryWarning := d.registry.warning.elim "" (·.text)
  startedAt := some d.startedAt.toTimestamp

/-! ## Watching

A watcher is told the version there is, and then of every change. The two
channels it listens to run side by side: only the order within each is
sure. -/

/-- Where a watcher stands in the two channels. -/
structure Watcher where
  includeLog : Bool
  bumps : Nat
  log : Nat
  deriving DecidableEq, Repr

/-- Starts to listen. -/
def subscribe (r : WatchRequest) (d : Daemon) : Watcher where
  includeLog := r.includeLog
  bumps := d.registry.bumps.subscribe
  log := d.writer.live.subscribe

/-- The first thing a watcher is told, and where it stands then. -/
def watch (r : WatchRequest) (d : Daemon) : UInt64 × Watcher := (d.version, d.subscribe r)

/-- The versions a watcher has not seen yet. -/
def Watcher.versions (w : Watcher) (d : Daemon) : List UInt64 := (d.registry.bumps.pending w.bumps).2

/-- The log entries a watcher has not seen yet. -/
def Watcher.entries (w : Watcher) (d : Daemon) : List LogEntry :=
  if w.includeLog then
    (d.writer.live.pending w.log).2.map fun c => c.event.toEntry (Int64.ofNat c.id)
  else []

end Daemon

end Interpose
