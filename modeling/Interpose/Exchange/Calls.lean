/-
Interpose.Exchange.Calls — calls of the daemon by their names, in JSON.

A call is answered with its message, or with the code and the text of the
fault. The log is written before the next call.
-/
import Interpose.Exchange.Messages
import Interpose.Daemon.Service

namespace Interpose.Exchange

/-- The answer of a call, or its fault. -/
def answered {α : Type} (f : Form α) : Except CallFault α → Json
  | .ok a => f.write a
  | .error e => faultWith e.code.name e.message

/-- Makes a call. -/
def callDaemon (name : String) (request : Json) (d : Daemon) : Json × Daemon :=
  match name with
  | "query_scope" => (answered scopeAnswerForm (d.queryScope (scopeQueryForm.read request)), d)
  | "register_session" =>
    let (a, d) := d.registerSession (registrationForm.read request)
    (answered registrationAnswerForm a, d.settle)
  | "report_failure" =>
    let (a, d) := d.reportFailure (failureReportForm.read request)
    (answered ackForm a, d.settle)
  | "heartbeat" =>
    let (a, d) := d.heartbeat (heartbeatForm.read request)
    (heartbeatAnswerForm.write a, d)
  | "list_sessions" => (sessionListForm.write d.listSessions, d)
  | "get_registry" => (registryListingForm.write d.getRegistry, d)
  | "mutate_registry" =>
    let (a, d) := d.mutateRegistry (mutationForm.read request)
    (answered mutationAnswerForm a, d.settle)
  | "read_log" => (answered logPageForm (d.readLog (logQueryForm.read request)), d)
  | "status" => (statusForm.write d.status, d)
  | _ => (fault "UnknownCall", d)

/-- Watches while calls are made: what a watcher is told, up to a number of
things, the versions first. -/
def watchDaemon (request : Json) (calls : List (String × Json)) (count : Nat) (d : Daemon) :
    Json × Daemon :=
  let (version, watcher) := d.watch (watchForm.read request)
  let d := calls.foldl (fun d c => (callDaemon c.1 c.2 d).2) d
  let versions := (version :: watcher.versions d).take count
  let entries := (watcher.entries d).take (count - versions.length)
  (.record [("versions", .array (versions.map fun v => .int v.toNat)),
    ("logs", .array (entries.map fun e => writeWatch { event := some (.log e) }))], d)

end Interpose.Exchange
