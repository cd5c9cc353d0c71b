/-
Interpose.Exchange.Accounts — what happened in a process, in JSON.

These are the forms of values and outcomes, of answers to requests, of the
notes that programs leave, and of sessions and what became of a fork.
-/
import Interpose.Json.Printer
import Interpose.Exchange.Messages
import Interpose.Script.Link
import Interpose.Script.Request

namespace Interpose.Exchange

open Script

/-! ## Values and errors -/

def value (v : Value) : Json :=
  match v with
  | .void => .record [("void", .bool true)]
  | .null => .null
  | .bool b => .bool b
  | .int n => .int n.toInt
  | .float bits => .record [("float", .str (Text.Hex.word bits))]
  | .str s => .str s
  | .object c id => .record [("obj", .array [.str c, .int id.toNat])]

def thrown (t : Throwable) : Json := .array [.str t.className, .str t.message]

def result (r : Outcome) : Json :=
  match r with
  | .ok v => .record [("ok", value v)]
  | .error t => .record [("throw", thrown t), ("text", .str t.text)]

def hookErrorName : HookError → String
  | .frozen _ => "AlreadyFinalMethod"
  | .abstractMethod _ => "IncompatibleSignature"
  | .wrongParams _ _ _ => "IncompatibleSignature"
  | .unresolvable _ => "TargetNotResolvable"
  | .notHookable _ _ => "NotHookable"
  | .unknownHandle _ => "UnknownHandle"
  | .restoreFailed _ _ => "RestoreFailed"

def runtimeErrorName : RuntimeError → String
  | .unknownMethod _ => "UnknownMethod"
  | .deoptUnsupported _ => "DeoptUnsupported"
  | .rejected _ => "Rejected"

def resolveErrorName : ResolveError → String
  | .malformed _ _ => "Malformed"
  | .noClass _ => "NotFound"
  | .notFound _ => "NotFound"
  | .ambiguous _ _ => "Ambiguous"

def methodNumber (m : MethodId) : Json := .int m.raw.toNat

def layer (l : LayerInfo) : Json :=
  .record [("handle", .int l.handle.raw), ("method", methodNumber l.method), ("module", .str l.moduleId),
    ("priority", .int l.priority.toInt), ("order", .int l.order)]

/-- Calls that race end in no order of their own, so what they came to is
listed in the order of its text. -/
def byText (js : List Json) : List Json := js.mergeSort fun a b => a.compact ≤ b.compact

def answerFields : Script.Answer → List (String × Json)
  | .noSuchHandle => [("error", .str "NoSuchHandle")]
  | .handle h => [("handle", .int h.raw), ("text", .str h.text)]
  | .hookError e => [("error", .str (hookErrorName e)), ("message", .str e.message)]
  | .runtimeError e => [("error", .str (runtimeErrorName e)), ("message", .str e.message)]
  | .resolveError e => [("error", .str (resolveErrorName e)), ("message", .str e.message)]
  | .thrown t => [("throw", thrown t)]
  | .done => [("ok", .bool true)]
  | .removed n => [("removed", .int n)]
  | .outcome r => membersOf (result r)
  | .layers ls => [("layers", .array (ls.map layer))]
  | .table hooked n => [("hooked", .array (hooked.map methodNumber)), ("len", .int n),
      ("empty", .bool (n == 0)), ("debug", .str (HookTable.account hooked.length n))]
  | .hooked b => [("hooked", .bool b)]
  | .methodOf m b => [("method", orNull methodNumber m), ("original", .bool b)]
  | .calls n rs => [("calls", .int n), ("distinct", .array (byText (rs.map result)))]
  | .form f => [("form", orNull (fun f : ExecForm => .str f.name) f)]
  | .formInfo f n => [("form", orNull (fun f : ExecForm => .str f.name) f),
      ("needs_deopt", orNull (fun f : ExecForm => .bool f.needsDeopt) f),
      ("deoptimizable", orNull (fun f : ExecForm => .bool f.deoptimizable) f), ("deopts", .int n)]
  | .deopts n => [("deopts", .int n)]
  | .entered b => [("entered", .bool b)]
  | .initialized b => [("initialized", .bool b)]
  | .classInfo e i ms => [("exists", .bool e), ("initialized", .bool i),
      ("methods", .array (ms.map fun m => .array [methodNumber m.id, .str m.descriptor]))]
  | .info m e => [("info", orNull (fun m : MethodInfo => .record [("id", .str m.id.text),
        ("descriptor", .str m.descriptor), ("ret", .str m.ret), ("flags", .int m.flags.bits.toNat)]) m),
      ("entry", .bool e)]
  | .method m => [("method", methodNumber m)]
  | .methods ms => [("methods", .array (ms.map methodNumber))]
  | .nothing => [("error", .str "UnknownOp")]

def note : Note → Json
  | .line s => .str s
  | .before a => .record [("pre", .record (answerFields a))]
  | .base r => .record [("original", orNull result r)]
  | .answer a => .record (answerFields a)

def withTrace (fs : List (String × Json)) (trace : List Note) : Json :=
  .record (fs ++ if trace.isEmpty then [] else [("trace", .array (trace.map note))])

def moduleDiagnostic (d : ModuleDiagnostic) : Json :=
  .record [("module_id", .str d.moduleId), ("diagnostic", writeDiagnostic d.diagnostic)]

def reportFields (r : ApplyReport) : List (String × Json) :=
  [("applied", textArray r.applied), ("failed", .array (r.failed.map moduleDiagnostic)),
    ("diagnostics", .array (r.diagnostics.map moduleDiagnostic)), ("clean", .bool r.isClean),
    ("reportable", textArray (r.reportable.map (·.moduleId)))]

def sessionFields (token : Json) (s : ProcessSession) : List (String × Json) :=
  [("pid", .int s.pid.toNat), ("app", writeApp s.app), ("module_ids", textArray s.moduleIds),
    ("failed", textArray s.failed), ("hook_count", .int s.hookCount),
    ("registry_version", .int s.registryVersion.toNat), ("token", token),
    ("applied", .array (s.applied.map fun m => .record [("module_id", .str m.moduleId),
      ("priority", .int m.priority.toInt), ("handles", .array (m.handles.map fun h => .int h.raw))]))]

def tokenText (t : Option String) : Json := orNull .str t

/-! ## Forks -/

def linkCall : LinkCall → Json
  | .queryScope app => .array [.str "query_scope", writeApp app]
  | .register a r => .array [.str "register", .str a, registration r]
  | .report pid id d => .array [.str "report", .int pid.toNat, .str id, writeDiagnostic d]
  | .heartbeat pid t a => .array [.str "heartbeat", .int pid.toNat, .str t, .str a]

def readLink (j : Json) : LinkScript where
  scope := match (text? j "scope_error").bind LinkFault.ofName? with
    | some f => .error f
    | none => .ok { registryVersion := word64 j "version", modules := (items j "modules").map readInfo }
  registers := (texts j "register").map LinkFault.ofName?
  heartbeats := (texts j "heartbeats").map fun h =>
    match LinkFault.ofName? h with
    | some f => .error f
    | none => .ok (h == "known")
  reportFault := (text? j "report_error").bind LinkFault.ofName?

def forkFields (o : ForkOutcome) (session : Json) (calls : Json) :
    List (String × Json) :=
  [("state", .str o.state.name), ("trail", textArray (o.trail.map (·.name))),
    ("running", .bool o.isRunning), ("applied", textArray o.applied),
    ("version", .int o.registryVersion.toNat), ("report", .record (reportFields o.report)),
    ("session", session), ("keepalive", .bool o.keepalive.isSome), ("calls", calls)]

end Interpose.Exchange
