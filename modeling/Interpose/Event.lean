/-
Interpose.Event — diagnostic events.

Whatever processes report and whatever the daemon does itself becomes one
kind of event. Events are written to the log and shown to those who watch;
both times they travel as log entries.
-/
import Interpose.Message
import Interpose.Time.Rfc3339
import Interpose.Json.Record

namespace Interpose

structure Event where
  ts : DateTime
  pid : UInt32 := 0
  moduleId : String := ""
  kind : DiagnosticKind
  detail : String := ""
  deriving DecidableEq, Inhabited

namespace Event

/-! ## Making events -/

/-- An event of the daemon's own. -/
def daemon (ts : DateTime) (kind : DiagnosticKind) (detail : String) : Event :=
  { ts, kind, detail }

/-- A diagnostic that a process reported. A kind nobody knows is unspecified;
the method concerned, if there is one, stands in front of the detail. -/
def reported (ts : DateTime) (pid : UInt32) (moduleId : String) (d : Diagnostic) : Event where
  ts := ts
  pid := pid
  moduleId := moduleId
  kind := (DiagnosticKind.ofCode? d.kind).getD .unspecified
  detail := if d.method.isEmpty then d.detail else d.method ++ ": " ++ d.detail

/-! ## Log entries -/

/-- The entry of an event with an id. -/
def toEntry (e : Event) (id : Int64) : LogEntry where
  id := id
  ts := some e.ts.toTimestamp
  pid := e.pid
  moduleId := e.moduleId
  event := e.kind.code
  detail := e.detail

/-- Why an entry is no event. -/
inductive EntryFault where
  | noTimestamp
  | unknownKind (code : Int32)
  | badTimestamp
  deriving DecidableEq, Repr

def EntryFault.message : EntryFault → String
  | noTimestamp => "missing timestamp"
  | unknownKind code => "unknown diagnostic kind " ++ toString code.toInt
  | badTimestamp => "invalid timestamp"

/-- The event of an entry. -/
def ofEntry (e : LogEntry) : Except EntryFault Event :=
  match e.ts with
  | none => .error .noTimestamp
  | some ts =>
    match DiagnosticKind.ofCode? e.event with
    | none => .error (.unknownKind e.event)
    | some kind =>
      match DateTime.ofTimestamp? ts with
      | none => .error .badTimestamp
      | some ts => .ok { ts, pid := e.pid, moduleId := e.moduleId, kind, detail := e.detail }

/-! ## JSON -/

/-- Reads an event: its moment as a text, its kind by name. -/
def ofJson? (j : Json) : Option Event :=
  match j.fields? ["ts", "pid", "module_id", "kind", "detail"] with
  | some [ts, pid, moduleId, kind, detail] => do
    return {
      ts := ← Rfc3339.parse? (← Json.needed Json.text? ts)
      pid := ← Json.needed Json.uint32? pid
      moduleId := ← Json.needed Json.text? moduleId
      kind := ← DiagnosticKind.ofName? (← Json.needed Json.text? kind)
      detail := ← Json.needed Json.text? detail }
  | _ => none

end Event

end Interpose
