/-
Interpose.Session.Table — the processes the daemon has heard of.

The daemon never looks into a process. A session is what one told when it
registered, what was reported of it since, and when it was last heard of.
-/
import Interpose.Registry.Document
import Interpose.Message
import Interpose.Time.DateTime
import Interpose.Time.Duration

namespace Interpose

/-- One reading of the clock: a date, and a count of nanoseconds that never
goes back. -/
structure ClockReading where
  date : DateTime := .epoch
  nanos : Nat := 0
  deriving DecidableEq, Inhabited

/-- What the clock shows later. -/
def ClockReading.after (r : ClockReading) (nanos : Nat) : ClockReading :=
  let total := r.date.nanos + nanos
  { date := (DateTime.of? (r.date.secs + total / 1000000000) (total % 1000000000)).getD r.date
    nanos := r.nanos + nanos }

structure Session where
  pid : UInt32
  app : AppDescriptor
  moduleIds : List String := []
  registryVersion : UInt64 := 0
  failedModuleIds : List String := []
  /-- Given out with the registration; who shows it is the process that registered. -/
  token : String
  registeredAt : DateTime := .epoch
  lastSeen : DateTime := .epoch
  /-- When it was last heard of, on the count that never goes back. -/
  seen : Nat := 0
  deriving DecidableEq, Inhabited

namespace Session

/-- The modules it carries and would not be given now. -/
def stale (s : Session) (d : Registry.Document) : List String := d.stale s.app s.moduleIds

def summary (s : Session) (d : Registry.Document) : SessionSummary where
  pid := s.pid
  app := some s.app
  moduleIds := s.moduleIds
  registryVersion := s.registryVersion
  registeredAt := some s.registeredAt.toTimestamp
  lastSeen := some s.lastSeen.toTimestamp
  staleModuleIds := s.stale d
  failedModuleIds := s.failedModuleIds

def heardAt (s : Session) (now : ClockReading) : Session :=
  { s with lastSeen := now.date, seen := now.nanos }

def fail (s : Session) (moduleId : String) : Session :=
  if moduleId.isEmpty || s.failedModuleIds.contains moduleId then s
  else { s with failedModuleIds := s.failedModuleIds ++ [moduleId] }

/-- Whether nothing was heard of it for longer than `ttl` nanoseconds. -/
def isOverdue (s : Session) (now ttl : Nat) : Bool := ttl < now - s.seen

end Session

/-- The sessions, one for each process, in the order of the process ids. -/
structure SessionTable where
  ttl : Duration
  sessions : List Session := []
  deriving DecidableEq, Inhabited

namespace SessionTable

def get? (t : SessionTable) (pid : UInt32) : Option Session := t.sessions.find? (·.pid == pid)

def size (t : SessionTable) : Nat := t.sessions.length

/-- Puts a session in place of the one its process had. -/
def put (t : SessionTable) (s : Session) : SessionTable :=
  { t with sessions := t.sessions.filter (·.pid < s.pid) ++ [s]
      ++ t.sessions.filter (fun old => s.pid < old.pid) }

/-- Changes the session of a process, if it has one. -/
def adjust (t : SessionTable) (pid : UInt32) (f : Session → Session) : SessionTable :=
  { t with sessions := t.sessions.map fun s => if s.pid == pid then f s else s }

/-- Records a process under a fresh token. -/
def register (t : SessionTable) (token : String) (now : ClockReading) (app : AppDescriptor)
    (r : Registration) : SessionTable :=
  t.put {
    pid := r.pid, app, moduleIds := r.moduleIds, registryVersion := r.registryVersion
    failedModuleIds := r.failedModuleIds, token
    registeredAt := now.date, lastSeen := now.date, seen := now.nanos }

/-- Whether a process is known by this token. -/
def knows (t : SessionTable) (pid : UInt32) (token : String) : Bool :=
  (t.get? pid).any (·.token == token)

/-- Takes note of a process that is known by its token. -/
def heartbeat (t : SessionTable) (now : ClockReading) (pid : UInt32) (token : String) :
    Bool × SessionTable :=
  if t.knows pid token then (true, t.adjust pid (·.heardAt now)) else (false, t)

/-- Notes a module that failed in a process. -/
def recordFailure (t : SessionTable) (pid : UInt32) (moduleId : String) : SessionTable :=
  t.adjust pid (·.fail moduleId)

def summaries (t : SessionTable) (d : Registry.Document) : List SessionSummary :=
  t.sessions.map (·.summary d)

/-! ## Dropping what is overdue

The table is looked through once, and then each process found is dropped if
it is overdue still: something may have been heard of it in between. -/

/-- The processes that are overdue. -/
def overdue (t : SessionTable) (now ttl : Nat) : List UInt32 :=
  (t.sessions.filter (·.isOverdue now ttl)).map (·.pid)

/-- Drops the session of a process if it is overdue; answers what was dropped. -/
def dropOverdue (t : SessionTable) (now ttl : Nat) (pid : UInt32) : Option Session × SessionTable :=
  match t.get? pid with
  | none => (none, t)
  | some s =>
    if s.isOverdue now ttl then (some s, { t with sessions := t.sessions.filter (·.pid != pid) })
    else (none, t)

/-- Drops processes one after the other. -/
def dropEach (now ttl : Nat) : List UInt32 → SessionTable → List Session × SessionTable
  | [], t => ([], t)
  | pid :: pids, t =>
    let (gone, t) := t.dropOverdue now ttl pid
    let (rest, t) := dropEach now ttl pids t
    (gone.toList ++ rest, t)

/-- Drops every session that has missed its time. -/
def reap (t : SessionTable) (now : Nat) : List Session × SessionTable :=
  dropEach now t.ttl.totalNanos (t.overdue now t.ttl.totalNanos) t

end SessionTable

end Interpose
