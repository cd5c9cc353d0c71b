/-
Interpose.Time.Duration — lengths of time, to the nanosecond.
-/
namespace Interpose

/-- Whole seconds in a word of 64 bits, and less than a thousand million
nanoseconds more. -/
structure Duration where
  secs : UInt64 := 0
  nanos : UInt32 := 0
  deriving DecidableEq, Repr, Inhabited

namespace Duration

def ofSecs (s : UInt64) : Duration := { secs := s }

def ofMillis (ms : UInt64) : Duration where
  secs := ms / 1000
  nanos := (ms % 1000).toUInt32 * 1000000

/-- The whole length in nanoseconds. -/
def totalNanos (d : Duration) : Nat := d.secs.toNat * 1000000000 + d.nanos.toNat

end Duration

end Interpose
