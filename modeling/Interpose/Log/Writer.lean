/-
Interpose.Log.Writer — from the queue to the rows, in batches.

The writer gathers events and writes them in one transaction: either every
event of a batch gets its row or none does. Only beginning a transaction is
tried again while somebody else holds the database; any other failure loses
the batch.
-/
import Interpose.Log.Queue
import Interpose.Log.Table
import Interpose.Broadcast

namespace Interpose.Log

/-! ## The database -/

inductive SqlFault where
  /-- Somebody else holds the database. -/
  | locked
  | failed
  deriving DecidableEq, Repr

/-- A database as the writer uses it; `σ` is what stands behind it. -/
structure Database (σ : Type) where
  begin : σ → Except SqlFault Unit × σ
  /-- Adds an event within a transaction; answers its number. -/
  insert : Event → σ → Except SqlFault Nat × σ
  commit : σ → Except SqlFault Unit × σ
  rollback : σ → σ

/-! ## One batch -/

/-- An event with the number of its row. -/
structure Committed where
  id : Nat
  event : Event
  deriving DecidableEq, Inhabited

/-- How often beginning is tried again. -/
def retries : Nat := 5

namespace Database

variable {σ : Type}

/-- Adds events one after the other, up to the first that fails. -/
def insertAll (db : Database σ) : List Event → σ → Except SqlFault (List Committed) × σ
  | [], s => (.ok [], s)
  | e :: es, s =>
    match db.insert e s with
    | (.error f, s) => (.error f, s)
    | (.ok id, s) =>
      match db.insertAll es s with
      | (.error f, s) => (.error f, s)
      | (.ok cs, s) => (.ok ({ id, event := e } :: cs), s)

/-- A transaction that has begun: all events are added and committed, or the
transaction is rolled back. -/
def writeAll (db : Database σ) (batch : List Event) (s : σ) : Except SqlFault (List Committed) × σ :=
  match db.insertAll batch s with
  | (.error f, s) => (.error f, db.rollback s)
  | (.ok cs, s) =>
    match db.commit s with
    | (.error f, s) => (.error f, db.rollback s)
    | (.ok (), s) => (.ok cs, s)

/-- Writes a batch; beginning may be tried again `tries` times. -/
def flushWith (db : Database σ) (batch : List Event) : Nat → σ →
    Except SqlFault (List Committed) × σ
  | tries, s =>
    match db.begin s with
    | (.ok (), s) => db.writeAll batch s
    | (.error .failed, s) => (.error .failed, s)
    | (.error .locked, s) =>
      match tries with
      | 0 => (.error .locked, s)
      | tries + 1 => db.flushWith batch tries s

/-- Writes a batch. With no events there is nothing to do. -/
def flush (db : Database σ) (batch : List Event) (s : σ) : Except SqlFault (List Committed) × σ :=
  if batch.isEmpty then (.ok [], s) else db.flushWith batch retries s

end Database

/-! ## The writer -/

/-- The writer at work: what it has gathered, and what it has told of. -/
structure Writer (σ : Type) where
  database : Database σ
  batchSize : Nat
  buffer : List Event := []
  /-- Committed events go to all who watch. -/
  live : Broadcast Committed
  behind : σ

namespace Writer

variable {σ : Type}

/-- Writes what is gathered, and answers what there is to tell of it. A batch
that fails is lost. -/
def store (w : Writer σ) : List Committed × Writer σ :=
  match w.database.flush w.buffer w.behind with
  | (.ok cs, s) => (cs, { w with buffer := [], behind := s })
  | (.error _, s) => ([], { w with buffer := [], behind := s })

/-- Tells all who watch of one row. -/
def tell (w : Writer σ) (c : Committed) : Writer σ := { w with live := w.live.send c }

/-- Writes what is gathered, then tells of it. -/
def flush (w : Writer σ) : Writer σ :=
  let (cs, w) := w.store
  cs.foldl tell w

def gather (w : Writer σ) (e : Event) : Writer σ := { w with buffer := w.buffer ++ [e] }

/-- Whether there is a whole batch. -/
def isFull (w : Writer σ) : Bool := w.batchSize ≤ w.buffer.length

/-- Takes an event from the queue; a full batch is written. -/
def receive (w : Writer σ) (e : Event) : Writer σ :=
  let gathered := w.gather e
  if gathered.isFull then gathered.flush else gathered

/-- The interval is over: whatever is gathered is written. -/
def tick (w : Writer σ) : Writer σ := w.flush

/-- Takes events to the end of the queue. -/
def run (w : Writer σ) (es : List Event) : Writer σ := (es.foldl receive w).flush

end Writer

/-! ## The file -/

/-- The database file: the rows, unless there is no table, and the rows as
they will be once a transaction that has begun is committed. -/
structure LogFile where
  table : Option Table := none
  working : Option Table := none
  deriving DecidableEq, Repr, Inhabited

namespace LogFile

/-- Makes the table unless it is there. -/
def prepare (f : LogFile) : LogFile := { f with table := some (f.table.getD {}) }

/-- The file as a database that nobody else uses. -/
def database : Database LogFile where
  begin f := (.ok (), { f with working := f.table })
  insert e f :=
    match f.working with
    | none => (.error .failed, f)
    | some t => (.ok (t.lastId + 1), { f with working := some (t.add e) })
  commit f := (.ok (), { table := f.working, working := none })
  rollback f := { f with working := none }

end LogFile

end Interpose.Log
