/-
Interpose.Log.Table — the rows of the diagnostic log.

Rows are numbered from one in the order they are added, and a number is
never given twice: removing rows does not free theirs.
-/
import Interpose.Event
import Interpose.Defaults

namespace Interpose.Log

/-- A row as it is stored: the moment in microseconds, the kind by name. -/
structure Row where
  id : Nat
  micros : Int64 := 0
  pid : Int64 := 0
  moduleId : String := ""
  event : String := ""
  detail : String := ""
  deriving DecidableEq, Repr, Inhabited

namespace Row

/-- The row of an event. -/
def ofEvent (id : Nat) (e : Event) : Row where
  id := id
  micros := e.ts.micros
  pid := Int64.ofNat e.pid.toNat
  moduleId := e.moduleId
  event := e.kind.name
  detail := e.detail

/-- The entry a row is served as. A moment out of range is served as the
beginning of 1970, a kind nobody knows as unspecified, and of a process id
its low 32 bits. -/
def toEntry (r : Row) : LogEntry where
  id := Int64.ofNat r.id
  ts := some ((DateTime.ofMicros? r.micros).getD .epoch).toTimestamp
  pid := r.pid.toUInt64.toUInt32
  moduleId := r.moduleId
  event := ((DiagnosticKind.ofName? r.event).getD .unspecified).code
  detail := r.detail

end Row

/-- The columns of a stored row; the table itself gives the row its number. -/
def columns : List String := ["ts", "pid", "module_id", "event", "detail"]

/-- The statement that adds a row, with a numbered parameter for each column. -/
def insertStatement : String :=
  let parameters := columns.mapIdx fun i _ => "?" ++ toString (i + 1)
  "INSERT INTO diagnostics (" ++ ", ".intercalate columns ++ ") VALUES ("
    ++ ",".intercalate parameters ++ ")"

structure Table where
  /-- In the order of their numbers. -/
  rows : List Row := []
  /-- The last number given out. -/
  lastId : Nat := 0
  deriving DecidableEq, Repr, Inhabited

namespace Table

/-- Adds a row under the next number. -/
def insert (t : Table) (row : Nat → Row) : Table where
  rows := t.rows ++ [row (t.lastId + 1)]
  lastId := t.lastId + 1

def add (t : Table) (e : Event) : Table := t.insert (Row.ofEvent · e)

/-- Removes the rows from before a moment in microseconds. -/
def purge (t : Table) (cutoff : Int) : Table :=
  { t with rows := t.rows.filter fun r => cutoff ≤ r.micros.toInt }

/-- The rows behind a number, `limit` of them at most. Whoever gives a number
reads on from it and gets the oldest such rows; whoever gives none gets the
newest. -/
def select (t : Table) (limit : Nat) (sinceId : Int64) : List Row :=
  let behind := t.rows.filter fun r => sinceId.toInt < r.id
  if 0 < sinceId.toInt then behind.take limit
  else behind.drop (behind.length - limit)

/-- The number of rows that a limit stands for: nought leaves it open. -/
def limitOf (limit : UInt32) : Nat :=
  if limit = 0 then Defaults.readLimit.toNat else limit.toNat

/-- Reads the log. -/
def read (t : Table) (limit : UInt32) (sinceId : Int64) : List LogEntry :=
  (t.select (limitOf limit) sinceId).map (·.toEntry)

end Table

end Interpose.Log
