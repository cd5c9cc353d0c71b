/-
Interpose.Broadcast — a channel that many listen to.

Whoever listens gets what is sent from then on. The channel remembers the
last items only: a listener that falls further behind misses the oldest
ones and is told how many.
-/
namespace Interpose

/-- Everything that was sent, in order, and how much of it is remembered. -/
structure Broadcast (α : Type) where
  capacity : Nat
  sent : List α := []
  deriving Repr

namespace Broadcast

variable {α : Type}

def send (b : Broadcast α) (x : α) : Broadcast α := { b with sent := b.sent ++ [x] }

/-- The place of a listener that starts now: how much has been sent before. -/
def subscribe (b : Broadcast α) : Nat := b.sent.length

/-- What a listener misses, how many items that is, and the rest. -/
def pending (b : Broadcast α) (place : Nat) : Nat × List α :=
  let missed := (b.sent.length - place) - b.capacity
  (missed, b.sent.drop (place + missed))

end Broadcast

end Interpose
