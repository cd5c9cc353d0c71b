/-
Interpose.Daemon.State — the daemon, and what it stands on.

* `Machine` — what is there whether or not a daemon runs: files, the log,
  the clock, and the supply of tokens. A daemon that stops leaves a
  machine behind, and the next one boots on it.
* `Daemon` — the registry, the sessions, and the way of an event into the
  log: the queue that everybody publishes to, then the writer.

Nothing the machine holds can keep the daemon from booting. Sessions live
only as long as it does.
-/
import Interpose.Daemon.Settings
import Interpose.Registry.Live
import Interpose.Session.Table
import Interpose.Log.Writer

namespace Interpose

/-! ## What outlives a daemon -/

/-- Where tokens come from, in the order they are given out. -/
structure TokenSupply where
  name : Nat → String
  issued : Nat := 0

/-- The next token; it is not given out again. -/
def TokenSupply.next (s : TokenSupply) : String × TokenSupply :=
  (s.name s.issued, { s with issued := s.issued + 1 })

structure Machine where
  disk : Disk := {}
  log : Log.LogFile := {}
  clock : ClockReading := {}
  tokens : TokenSupply

/-! ## The daemon -/

structure Daemon where
  store : Registry.Store
  registry : Registry.Live := {}
  sessions : SessionTable
  /-- Events on their way to the writer. -/
  queue : Log.Queue Event
  writer : Log.Writer Log.LogFile
  startedAt : DateTime
  disk : Disk
  clock : ClockReading
  tokens : TokenSupply

namespace Daemon

/-! ## Events -/

/-- Offers an event to the writer, which never waits for it. -/
def publish (d : Daemon) (e : Event) : Daemon := { d with queue := d.queue.publish e }

/-- The writer catches up: it takes what is queued and writes all it has. -/
def settle (d : Daemon) : Daemon :=
  { d with writer := d.writer.run d.queue.items, queue := { d.queue with items := [] } }

/-- What the clock shows as a date. -/
def now (d : Daemon) : DateTime := d.clock.date

/-! ## Starting and stopping -/

/-- Removes the rows of the log that are older than a time to live; nought
keeps everything. -/
def expire (ttl : Duration) (now : DateTime) (log : Log.LogFile) : Log.LogFile :=
  if ttl.totalNanos = 0 then log
  else
    let age := min (ttl.totalNanos / 1000) Int64.maxValue.toNatClampNeg
    let cutoff := max Int64.minValue.toInt (now.micros.toInt - age)
    { log with table := log.table.map (·.purge cutoff) }

/-- Starts a daemon. Of the log it keeps what its settings let it keep. A
registry that had to be set aside is the first thing it tells of. -/
def boot (s : Settings) (m : Machine) : Daemon :=
  let store := Registry.Store.withKey (m.disk.locate s.registryPath) s.signingKey
  let log := if s.diagnostics.purgeOnRestart then {} else m.log
  let (registry, disk) := Registry.Live.start store m.disk
  let d : Daemon := {
    store, registry, disk
    sessions := { ttl := s.heartbeatTtl }
    queue := .ofCapacity s.diagnostics.busCapacity
    writer :=
      { database := Log.LogFile.database
        batchSize := s.diagnostics.batchSize
        live := { capacity := max s.diagnostics.busCapacity 1 }
        behind := expire s.diagnostics.ttl m.clock.date log.prepare }
    startedAt := m.clock.date
    clock := m.clock
    tokens := m.tokens }
  registry.warning.elim d fun w => d.publish (.daemon d.now .registryCorruption w.text)

/-- What a daemon leaves behind when it stops. -/
def machine (d : Daemon) : Machine where
  disk := d.disk
  log := d.settle.writer.behind
  clock := d.clock
  tokens := d.tokens

/-! ## Time -/

/-- Time goes by. -/
def wait (nanos : Nat) (d : Daemon) : Daemon := { d with clock := d.clock.after nanos }

/-- What the log says of a process that was not heard of in time. -/
def expiry (ts : DateTime) (s : Session) : Event where
  ts := ts
  pid := s.pid
  kind := .sessionExpired
  detail := s.app.appId ++ " missed its heartbeat"

/-- Drops every session that has missed its time, and tells of each. -/
def reap (d : Daemon) : Daemon :=
  let (gone, sessions) := d.sessions.reap d.clock.nanos
  (gone.map (expiry d.now)).foldl publish { d with sessions }

end Daemon

end Interpose
