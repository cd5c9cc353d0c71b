/-
Interpose.Time.Timestamp — a moment as it travels in messages.
-/
namespace Interpose

/-- Seconds since 1970 began in UTC, and nanoseconds on top. Messages carry
whatever numbers they carry: the fields have no bounds but their widths. -/
structure Timestamp where
  seconds : Int64 := 0
  nanos : Int32 := 0
  deriving DecidableEq, Repr, Inhabited

end Interpose
