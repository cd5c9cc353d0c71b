/-
Interpose.Control.Manager — what a command of the tool works with.

A command talks to whatever answers for the daemon, reads and writes files,
and prints lines. `Manager` is the first of these as a record of calls, so
that commands can be run against any daemon; `Desk` is all three as one
state; `Act` is a piece of a command, which may fail half way and then
leaves the desk as it is at that point.
-/
import Interpose.Control.Error
import Interpose.Message
import Interpose.Session.Table

namespace Interpose.Control

/-- The calls a client may make; `σ` is what stands behind them. -/
structure Manager (σ : Type) where
  status : σ → Except Status DaemonStatus × σ
  registry : σ → Except Status RegistryListing × σ
  mutate : MutationRequest → σ → Except Status MutationAnswer × σ
  sessions : σ → Except Status SessionList × σ
  readLog : LogQuery → σ → Except Status LogPage × σ
  /-- Starts the stream of log entries for whoever follows it. -/
  watch : WatchRequest → σ → Except Status Unit × σ

/-! ## The desk -/

structure Desk (σ : Type) where
  behind : σ
  /-- The files, seen from the working directory. -/
  files : Disk := {}
  /-- What has been printed. -/
  lines : List String := []
  clock : ClockReading := {}

/-- A piece of a command. -/
abbrev Act (σ α : Type) := ExceptT Failure (StateM (Desk σ)) α

namespace Act

variable {σ α : Type}

/-- Does a piece of a command; what was done stays done if it fails. -/
def perform (act : Act σ α) (desk : Desk σ) : Except Failure α × Desk σ := act desk

/-- Makes a call. -/
def call (f : σ → Except Status α × σ) : Act σ α := fun desk =>
  let (a, behind) := f desk.behind
  (a.mapError .remote, { desk with behind })

def print (line : String) : Act σ Unit := fun desk =>
  (.ok (), { desk with lines := desk.lines ++ [line] })

/-- Fails with a failure that is made of the one there was. -/
def blaming (act : Act σ α) (f : Failure → Failure) : Act σ α := fun desk =>
  let (a, desk) := act.perform desk
  (a.mapError f, desk)

/-- Reads a file of text. -/
def readFile (name : String) : Act σ String := fun desk =>
  ((desk.files.readText (desk.files.locate name)).mapError .file, desk)

def writeFile (name : String) (bytes : List UInt8) : Act σ Unit := fun desk =>
  match desk.files.write (desk.files.locate name) bytes with
  | .ok files => (.ok (), { desk with files })
  | .error e => (.error (.file (.disk e)), desk)

end Act

end Interpose.Control
