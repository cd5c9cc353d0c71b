/-
Interpose.Control.LogLine — a row of the log as a line.
-/
import Interpose.Message
import Interpose.Time.DateTime
import Interpose.Text.Column

namespace Interpose.Control

/-- A moment to the second; a dash if there is none. -/
def timeText (ts : Option Timestamp) : String :=
  ((ts.bind DateTime.ofTimestamp?).map (·.toSecond)).getD "-"

/-- Time, process, module, kind and detail, in columns. A kind nobody knows
shows as unspecified, an empty module as a dash. -/
def logLine (e : LogEntry) : String :=
  let kind := (DiagnosticKind.ofCode? e.event).getD .unspecified
  let moduleId := if e.moduleId.isEmpty then "-" else e.moduleId
  timeText e.ts ++ " " ++ Text.alignRight 6 (toString e.pid.toNat) ++ " "
    ++ Text.alignLeft 24 moduleId ++ " " ++ Text.alignLeft 22 kind.name ++ " " ++ e.detail

end Interpose.Control
