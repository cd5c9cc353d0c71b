/-
Interpose.Control.Follow — the log as it is printed while it grows.

Whoever follows the log listens first and reads what is there afterwards,
so that nothing falls in between. What is heard may then have been read
already: a row is printed only if its number is higher than that of every
row printed before it.
-/
import Interpose.Control.LogLine

namespace Interpose.Control

structure Follower where
  /-- The highest number printed; nought before the first. -/
  lastId : Int64 := 0
  printed : List LogEntry := []
  deriving DecidableEq, Repr, Inhabited

namespace Follower

/-- Prints a row of what was there. -/
def read (f : Follower) (e : LogEntry) : Follower where
  lastId := max f.lastId e.id
  printed := f.printed ++ [e]

/-- Prints what was there. -/
def history (es : List LogEntry) : Follower := es.foldl read {}

/-- Prints a row that is heard of, if it is new. -/
def hear (f : Follower) (e : LogEntry) : Follower :=
  if f.lastId < e.id then { lastId := e.id, printed := f.printed ++ [e] } else f

def lines (f : Follower) : List String := f.printed.map logLine

end Follower

end Interpose.Control
