/-
Interpose.Daemon.Settings — what the daemon is told by its settings file.

The file is read twice over. First its shape: every table and key with a
value of the right kind, defaults where the key may be missing, keys nobody
knows passed over. Then its sense: addresses, durations and names, in a
fixed order, so that of several faults the same one is always told. Paths
that are relative count from the directory the file is in.
-/
import Interpose.Toml.Parser
import Interpose.Toml.Record
import Interpose.Net.Address
import Interpose.Time.Span
import Interpose.Disk

namespace Interpose.Daemon

/-! ## Settings -/

structure LoggingSettings where
  enable : Bool := false
  file : Option String := none
  level : String := "INFO"
  deriving DecidableEq, Repr, Inhabited

structure DiagnosticsSettings where
  path : String
  purgeOnRestart : Bool
  synchronous : String
  journalSizeLimit : Nat
  checkpointInterval : Duration
  /-- Nought keeps everything. -/
  ttl : Duration
  flushIntervalMs : Nat
  batchSize : Nat
  busCapacity : Nat := 10000
  deriving DecidableEq, Repr, Inhabited

structure Settings where
  logging : LoggingSettings
  listen : Net.Address
  requestTimeout : Duration
  registryPath : String
  signingKey : String
  diagnostics : DiagnosticsSettings
  heartbeatTtl : Duration
  reapInterval : Duration
  deriving DecidableEq, Repr, Inhabited

inductive SettingsFault where
  | file (e : FileFault)
  /-- No document, or none of the right shape. -/
  | shape
  | address (text : String)
  | duration (text : String) (reason : Span.Fault)
  | synchronous (text : String)
  | emptyBatch
  deriving DecidableEq, Repr

/-- The message of a fault; one of shape has none of its own. -/
def SettingsFault.message? : SettingsFault → Option String
  | file e => some ("I/O error: " ++ e.message)
  | shape => none
  | address s => some ("invalid listen address '" ++ s ++ "': invalid socket address syntax")
  | duration s e => some ("invalid duration '" ++ s ++ "': " ++ e.message)
  | synchronous s => some ("invalid synchronous mode '" ++ s ++ "'")
  | emptyBatch => some "batch_size must be greater than zero"

/-! ## Shape -/

/-- The values of the file before anybody has looked at their sense. -/
structure Written where
  logging : LoggingSettings
  listen : String
  requestTimeout : String
  registryPath : String
  signingKey : String
  path : String
  purgeOnRestart : Bool
  synchronous : String
  journalSizeLimit : Nat
  checkpointInterval : String
  ttl : String
  flushIntervalMs : Nat
  batchSize : Nat
  busCapacity : Nat
  heartbeatTtl : String
  reapInterval : String

open Toml in
def LoggingSettings.ofToml? (t : Toml) : Option LoggingSettings := do
  let [enable, file, level] ← t.fields? ["enable", "file", "level"] | none
  some { enable := ← withDefault false truth? enable
         file := ← withDefault none (fun t => t.text?.map some) file
         level := ← withDefault "INFO" text? level }

open Toml in
def Written.ofMembers? (ms : Toml.Members) : Option Written := do
  let logging ← withDefault {} LoggingSettings.ofToml? (ms.lookup "logging")
  let ipc ← ms.lookup "ipc"
  let registry ← ms.lookup "registry"
  let diagnostics ← ms.lookup "diagnostics"
  let [listen, requestTimeout] ← ipc.fields? ["listen", "request_timeout"] | none
  let [registryPath, signingKey] ← registry.fields? ["path", "signing_key"] | none
  let [path, purge, synchronous, limit, checkpoint, ttl, flush, batch, bus] ←
    diagnostics.fields? ["path", "purge_on_restart", "synchronous", "journal_size_limit",
      "checkpoint_interval", "ttl", "flush_interval_ms", "batch_size", "bus_capacity"] | none
  let [heartbeat, reap] ← ((ms.lookup "sessions").getD (.table .implied [])).fields?
    ["heartbeat_ttl", "reap_interval"] | none
  some { logging
         listen := ← needed text? listen
         requestTimeout := ← withDefault "2s" text? requestTimeout
         registryPath := ← needed text? registryPath
         signingKey := ← withDefault "modhookd-registry" text? signingKey
         path := ← needed text? path
         purgeOnRestart := ← needed truth? purge
         synchronous := ← needed text? synchronous
         journalSizeLimit := ← needed natural? limit
         checkpointInterval := ← needed text? checkpoint
         ttl := ← needed text? ttl
         flushIntervalMs := ← needed natural? flush
         batchSize := ← needed natural? batch
         busCapacity := ← withDefault 10000 natural? bus
         heartbeatTtl := ← withDefault "1m" text? heartbeat
         reapInterval := ← withDefault "30s" text? reap }

/-! ## Sense -/

/-- The capital letters a small letter stands for, where they are ASCII: a
ligature stands for two or three. Other letters never become ASCII. -/
def capitals (c : Char) : List Char :=
  match c with
  | 'ı' => ['I']
  | 'ſ' => ['S']
  | 'ß' => ['S', 'S']
  | 'ﬀ' => ['F', 'F']
  | 'ﬁ' => ['F', 'I']
  | 'ﬂ' => ['F', 'L']
  | 'ﬃ' => ['F', 'F', 'I']
  | 'ﬄ' => ['F', 'F', 'L']
  | 'ﬅ' | 'ﬆ' => ['S', 'T']
  | c => [c.toUpper]

/-- How carefully the log is written: one of four names, in any case. -/
def readSynchronous (s : String) : Except SettingsFault String :=
  let name := String.ofList (s.toList.flatMap capitals)
  if ["OFF", "NORMAL", "FULL", "EXTRA"].contains name then .ok name else .error (.synchronous s)

/-- A span, or a bare nought. -/
def readDuration (s : String) : Except SettingsFault Duration :=
  let cs := Text.trim s.toList
  if cs = ['0'] then .ok {} else (Span.parse cs).mapError (.duration s)

def Written.check (w : Written) : Except SettingsFault Settings := do
  let listen ← (Net.Address.parse? w.listen).elim (.error (.address w.listen)) .ok
  let synchronous ← readSynchronous w.synchronous
  if w.batchSize = 0 then .error .emptyBatch
  let requestTimeout ← readDuration w.requestTimeout
  let checkpointInterval ← readDuration w.checkpointInterval
  let ttl ← readDuration w.ttl
  let heartbeatTtl ← readDuration w.heartbeatTtl
  let reapInterval ← readDuration w.reapInterval
  .ok { logging := w.logging, listen, requestTimeout
        registryPath := w.registryPath, signingKey := w.signingKey
        diagnostics :=
          { path := w.path, purgeOnRestart := w.purgeOnRestart, synchronous
            journalSizeLimit := w.journalSizeLimit, checkpointInterval, ttl
            flushIntervalMs := w.flushIntervalMs, batchSize := w.batchSize
            busCapacity := w.busCapacity }
        heartbeatTtl, reapInterval }

namespace Settings

/-- Reads the text of a settings file. -/
def parse (s : String) : Except SettingsFault Settings :=
  match (Toml.parse s).bind Written.ofMembers? with
  | some w => w.check
  | none => .error .shape

/-- A path counted from a directory, unless it starts at the root. -/
def anchored (base path : String) : String :=
  if path.startsWith "/" then path
  else if base = "" || base.endsWith "/" then base ++ path
  else base ++ "/" ++ path

/-- Counts every relative path from a directory. -/
def anchor (base : String) (s : Settings) : Settings :=
  { s with
    registryPath := anchored base s.registryPath
    diagnostics := { s.diagnostics with path := anchored base s.diagnostics.path }
    logging := { s.logging with file := s.logging.file.map (anchored base) } }

/-- Reads a settings file, which lies in the root directory of the disk. -/
def load (d : Disk) (name : String) : Except SettingsFault Settings := do
  let s ← (d.readText [name]).mapError .file
  (parse s).map (anchor d.root)

end Settings

end Interpose.Daemon
