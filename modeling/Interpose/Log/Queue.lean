/-
Interpose.Log.Queue — the queue in front of the log.

Publishing never waits: what does not fit is dropped. So is what comes
after the reader has gone.
-/
namespace Interpose.Log

structure Queue (α : Type) where
  /-- At least one item fits, whatever was asked for. -/
  capacity : Nat
  items : List α := []
  isOpen : Bool := true
  deriving Repr

namespace Queue

variable {α : Type}

def ofCapacity (n : Nat) : Queue α := { capacity := max n 1 }

/-- Whether an item would be taken now. -/
def hasRoom (q : Queue α) : Bool := q.isOpen && q.items.length < q.capacity

/-- Adds an item at the end, if there is room. -/
def publish (q : Queue α) (x : α) : Queue α :=
  if q.hasRoom then { q with items := q.items ++ [x] } else q

/-- Takes the first item. -/
def take (q : Queue α) : Option α × Queue α :=
  match q.items with
  | [] => (none, q)
  | x :: r => (some x, { q with items := r })

/-- The reader goes; what is queued is lost. -/
def close (q : Queue α) : Queue α := { q with items := [], isOpen := false }

end Queue

end Interpose.Log
