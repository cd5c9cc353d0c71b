/-
Interpose.Exchange.Messages — messages in JSON.

Every message has one form: an object with all its fields, where an absent
record is null and a number stands for a name. `form?` gives that form, and
the codec, of a message type by its name.
-/
import Interpose.Exchange.Fields
import Interpose.Wire.Messages

namespace Interpose.Exchange

/-! ## Applications, scopes and modules -/

def readApp (j : Json) : AppDescriptor :=
  { appId := text j "app_id", userId := word32 j "user_id", processName := text j "process_name" }

def writeApp (a : AppDescriptor) : Json :=
  .record [("app_id", .str a.appId), ("user_id", .int a.userId.toNat), ("process_name", .str a.processName)]

def readTarget (j : Json) : ScopeTarget :=
  { appId := text j "app_id", userId := (int? j "user_id").map fun n => UInt32.ofNat n.toNat }

def writeTarget (t : ScopeTarget) : Json :=
  .record [("app_id", .str t.appId), ("user_id", orNull (fun u : UInt32 => .int u.toNat) t.userId)]

def readScope (j : Json) : WireScope :=
  { allApps := flag j "all_apps", targets := (items j "targets").map readTarget }

def writeScope (s : WireScope) : Json :=
  .record [("all_apps", .bool s.allApps), ("targets", .array (s.targets.map writeTarget))]

def readEntry (j : Json) : EntryPoint := { codePath := text j "code_path", symbol := text j "symbol" }

def writeEntry (e : EntryPoint) : Json :=
  .record [("code_path", .str e.codePath), ("symbol", .str e.symbol)]

def readInfo (j : Json) : ModuleInfo where
  moduleId := text j "module_id"
  enabled := flag j "enabled"
  scope := if given j "scope" then some (readScope (field j "scope")) else none
  entryPoints := (items j "entry_points").map readEntry
  priority := signed32 j "priority"
  installSeq := word64 j "install_seq"

def writeInfo (m : ModuleInfo) : Json :=
  .record [("module_id", .str m.moduleId), ("enabled", .bool m.enabled), ("scope", orNull writeScope m.scope),
    ("entry_points", .array (m.entryPoints.map writeEntry)), ("priority", .int m.priority.toInt),
    ("install_seq", .int m.installSeq.toNat)]

/-! ## Diagnostics, sessions and the log -/

def readStamp (j : Json) : Timestamp := { seconds := signed64 j "seconds", nanos := signed32 j "nanos" }

def writeStamp (t : Timestamp) : Json :=
  .record [("seconds", .int t.seconds.toInt), ("nanos", .int t.nanos.toInt)]

def writeDiagnostic (d : Diagnostic) : Json :=
  .record [("kind", .int d.kind.toInt), ("detail", .str d.detail), ("method", .str d.method)]

def registration (r : Registration) : Json :=
  .record [("pid", .int r.pid.toNat), ("app", orNull writeApp r.app), ("module_ids", textArray r.moduleIds),
    ("registry_version", .int r.registryVersion.toNat), ("failed_module_ids", textArray r.failedModuleIds)]

def readRegistration (j : Json) : Registration where
  pid := word32 j "pid"
  app := if given j "app" then some (readApp (field j "app")) else none
  moduleIds := texts j "module_ids"
  registryVersion := word64 j "registry_version"
  failedModuleIds := texts j "failed_module_ids"

def readDiagnostic (j : Json) : Diagnostic :=
  { kind := signed32 j "kind", detail := text j "detail", method := text j "method" }

def readLog (j : Json) : LogEntry where
  id := signed64 j "id"
  ts := optional readStamp j "ts"
  pid := word32 j "pid"
  moduleId := text j "module_id"
  event := signed32 j "event"
  detail := text j "detail"

def writeLog (e : LogEntry) : Json :=
  .record [("id", .int e.id.toInt), ("ts", orNull writeStamp e.ts), ("pid", .int e.pid.toNat),
    ("module_id", .str e.moduleId), ("event", .int e.event.toInt), ("detail", .str e.detail)]

def readSummary (j : Json) : SessionSummary where
  pid := word32 j "pid"
  app := optional readApp j "app"
  moduleIds := texts j "module_ids"
  registryVersion := word64 j "registry_version"
  registeredAt := optional readStamp j "registered_at"
  lastSeen := optional readStamp j "last_seen"
  staleModuleIds := texts j "stale_module_ids"
  failedModuleIds := texts j "failed_module_ids"

def writeSummary (s : SessionSummary) : Json :=
  .record [("pid", .int s.pid.toNat), ("app", orNull writeApp s.app), ("module_ids", textArray s.moduleIds),
    ("registry_version", .int s.registryVersion.toNat),
    ("registered_at", orNull writeStamp s.registeredAt), ("last_seen", orNull writeStamp s.lastSeen),
    ("stale_module_ids", textArray s.staleModuleIds),
    ("failed_module_ids", textArray s.failedModuleIds)]

def version (v : UInt64) : String × Json := ("registry_version", .int v.toNat)

def readScopeEdit (j : Json) : ScopeEdit where
  moduleId := text j "module_id"
  mode := signed32 j "mode"
  scope := optional readScope j "scope"

def readPriorityEdit (j : Json) : PriorityEdit :=
  { moduleId := text j "module_id", priority := signed32 j "priority" }

def readMutation (j : Json) : MutationRequest where
  op :=
    let ref (k : String) : ModuleRef := { moduleId := text (field j k) "module_id" }
    if given j "install" then some (.install (readInfo (field j "install")))
    else if given j "uninstall" then some (.uninstall (ref "uninstall"))
    else if given j "enable" then some (.enable (ref "enable"))
    else if given j "disable" then some (.disable (ref "disable"))
    else if given j "set_scope" then some (.setScope (readScopeEdit (field j "set_scope")))
    else if given j "set_priority" then some (.setPriority (readPriorityEdit (field j "set_priority")))
    else none

def scopeEditJson (e : ScopeEdit) : Json :=
  .record [("module_id", .str e.moduleId), ("mode", .int e.mode.toInt), ("scope", orNull writeScope e.scope)]

def priorityEditJson (e : PriorityEdit) : Json :=
  .record [("module_id", .str e.moduleId), ("priority", .int e.priority.toInt)]

def refJson (r : ModuleRef) : Json := .record [("module_id", .str r.moduleId)]

def writeMutation (m : MutationRequest) : Json :=
  match m.op with
  | none => .record []
  | some (.install i) => .record [("install", writeInfo i)]
  | some (.uninstall r) => .record [("uninstall", refJson r)]
  | some (.enable r) => .record [("enable", refJson r)]
  | some (.disable r) => .record [("disable", refJson r)]
  | some (.setScope e) => .record [("set_scope", scopeEditJson e)]
  | some (.setPriority e) => .record [("set_priority", priorityEditJson e)]

def readWatch (j : Json) : WatchEvent where
  event :=
    if given j "registry_version" then some (.registryVersion (word64 j "registry_version"))
    else if given j "log" then some (.log (readLog (field j "log")))
    else none

def writeWatch (e : WatchEvent) : Json :=
  match e.event with
  | none => .record []
  | some (.registryVersion v) => .record [version v]
  | some (.log l) => .record [("log", writeLog l)]

/-! ## Forms -/

/-- A message type on the wire and in the answers. -/
structure Form (α : Type) where
  codec : Wire.Codec α
  read : Json → α
  write : α → Json

def scopeQueryForm : Form ScopeQuery :=
  ⟨Wire.scopeQuery, fun j => { app := optional readApp j "app" },
   fun q => .record [("app", orNull writeApp q.app)]⟩

def scopeAnswerForm : Form ScopeAnswer :=
  ⟨Wire.scopeAnswer,
   fun j => { registryVersion := word64 j "registry_version", modules := (items j "modules").map readInfo },
   fun a => .record [version a.registryVersion, ("modules", .array (a.modules.map writeInfo))]⟩

def registrationForm : Form Registration := ⟨Wire.registration, readRegistration, registration⟩

def registrationAnswerForm : Form RegistrationAnswer :=
  ⟨Wire.registrationAnswer,
   fun j => { livenessToken := text j "liveness_token", registryVersion := word64 j "registry_version" },
   fun a => .record [("liveness_token", .str a.livenessToken), version a.registryVersion]⟩

def failureReportForm : Form FailureReport :=
  ⟨Wire.failureReport,
   fun j => { pid := word32 j "pid", moduleId := text j "module_id",
              diagnostic := optional readDiagnostic j "diagnostic" },
   fun r => .record [("pid", .int r.pid.toNat), ("module_id", .str r.moduleId),
     ("diagnostic", orNull writeDiagnostic r.diagnostic)]⟩

def ackForm : Form Ack :=
  ⟨Wire.ack, fun j => { registryVersion := word64 j "registry_version" },
   fun a => .record [version a.registryVersion]⟩

def heartbeatForm : Form Heartbeat :=
  ⟨Wire.heartbeat, fun j => { pid := word32 j "pid", livenessToken := text j "liveness_token" },
   fun h => .record [("pid", .int h.pid.toNat), ("liveness_token", .str h.livenessToken)]⟩

def heartbeatAnswerForm : Form HeartbeatAnswer :=
  ⟨Wire.heartbeatAnswer,
   fun j => { known := flag j "known", registryVersion := word64 j "registry_version" },
   fun h => .record [("known", .bool h.known), version h.registryVersion]⟩

def askForm : Form Ask := ⟨Wire.ask, fun _ => {}, fun _ => .record []⟩

def sessionListForm : Form SessionList :=
  ⟨Wire.sessionList,
   fun j => { registryVersion := word64 j "registry_version",
              sessions := (items j "sessions").map readSummary },
   fun a => .record [version a.registryVersion, ("sessions", .array (a.sessions.map writeSummary))]⟩

def registryListingForm : Form RegistryListing :=
  ⟨Wire.registryListing,
   fun j => { registryVersion := word64 j "registry_version", modules := (items j "modules").map readInfo },
   fun a => .record [version a.registryVersion, ("modules", .array (a.modules.map writeInfo))]⟩

def mutationForm : Form MutationRequest := ⟨Wire.mutationRequest, readMutation, writeMutation⟩

def mutationAnswerForm : Form MutationAnswer :=
  ⟨Wire.mutationAnswer,
   fun j => { registryVersion := word64 j "registry_version", touched := optional readInfo j "module" },
   fun a => .record [version a.registryVersion, ("module", orNull writeInfo a.touched)]⟩

def watchForm : Form WatchRequest :=
  ⟨Wire.watchRequest, fun j => { includeLog := flag j "include_log" },
   fun w => .record [("include_log", .bool w.includeLog)]⟩

def logQueryForm : Form LogQuery :=
  ⟨Wire.logQuery, fun j => { limit := word32 j "limit", sinceId := signed64 j "since_id" },
   fun q => .record [("limit", .int q.limit.toNat), ("since_id", .int q.sinceId.toInt)]⟩

def logPageForm : Form LogPage :=
  ⟨Wire.logPage, fun j => { entries := (items j "entries").map readLog },
   fun a => .record [("entries", .array (a.entries.map writeLog))]⟩

def statusForm : Form DaemonStatus :=
  ⟨Wire.daemonStatus,
   fun j => { daemonVersion := text j "daemon_version", registryVersion := word64 j "registry_version",
              moduleCount := word32 j "module_count", enabledCount := word32 j "enabled_count",
              sessionCount := word32 j "session_count", registryWarning := text j "registry_warning",
              startedAt := optional readStamp j "started_at" },
   fun s => .record [("daemon_version", .str s.daemonVersion), version s.registryVersion,
     ("module_count", .int s.moduleCount.toNat), ("enabled_count", .int s.enabledCount.toNat),
     ("session_count", .int s.sessionCount.toNat), ("registry_warning", .str s.registryWarning),
     ("started_at", orNull writeStamp s.startedAt)]⟩

/-! ## Types by name -/

/-- A message type that is known by its name only. -/
structure NamedForm where
  α : Type
  form : Form α

def form? (name : String) : Option NamedForm :=
  match name with
  | "Timestamp" => some ⟨_, ⟨Wire.timestamp, readStamp, writeStamp⟩⟩
  | "AppDescriptor" => some ⟨_, ⟨Wire.appDescriptor, readApp, writeApp⟩⟩
  | "ScopeTarget" => some ⟨_, ⟨Wire.scopeTarget, readTarget, writeTarget⟩⟩
  | "Scope" => some ⟨_, ⟨Wire.scope, readScope, writeScope⟩⟩
  | "EntryPoint" => some ⟨_, ⟨Wire.entryPoint, readEntry, writeEntry⟩⟩
  | "ModuleInfo" => some ⟨_, ⟨Wire.moduleInfo, readInfo, writeInfo⟩⟩
  | "Diagnostic" => some ⟨_, ⟨Wire.diagnostic, readDiagnostic, writeDiagnostic⟩⟩
  | "LogEntry" => some ⟨_, ⟨Wire.logEntry, readLog, writeLog⟩⟩
  | "SessionSummary" => some ⟨_, ⟨Wire.sessionSummary, readSummary, writeSummary⟩⟩
  | "QueryScopeRequest" => some ⟨_, scopeQueryForm⟩
  | "QueryScopeResponse" => some ⟨_, scopeAnswerForm⟩
  | "RegisterSessionRequest" => some ⟨_, registrationForm⟩
  | "RegisterSessionResponse" => some ⟨_, registrationAnswerForm⟩
  | "ReportFailureRequest" => some ⟨_, failureReportForm⟩
  | "Ack" => some ⟨_, ackForm⟩
  | "HeartbeatRequest" => some ⟨_, heartbeatForm⟩
  | "HeartbeatResponse" => some ⟨_, heartbeatAnswerForm⟩
  | "ListSessionsRequest" => some ⟨_, askForm⟩
  | "GetRegistryRequest" => some ⟨_, askForm⟩
  | "StatusRequest" => some ⟨_, askForm⟩
  | "ListSessionsResponse" => some ⟨_, sessionListForm⟩
  | "RegistrySnapshot" => some ⟨_, registryListingForm⟩
  | "ModuleRef" => some ⟨_, ⟨Wire.moduleRef, fun j => { moduleId := text j "module_id" }, refJson⟩⟩
  | "SetScope" => some ⟨_, ⟨Wire.scopeEdit, readScopeEdit, scopeEditJson⟩⟩
  | "SetPriority" => some ⟨_, ⟨Wire.priorityEdit, readPriorityEdit, priorityEditJson⟩⟩
  | "MutateRegistryRequest" => some ⟨_, mutationForm⟩
  | "MutateRegistryResponse" => some ⟨_, mutationAnswerForm⟩
  | "WatchRequest" => some ⟨_, watchForm⟩
  | "WatchEvent" => some ⟨_, ⟨Wire.watchEvent, readWatch, writeWatch⟩⟩
  | "ReadLogRequest" => some ⟨_, logQueryForm⟩
  | "ReadLogResponse" => some ⟨_, logPageForm⟩
  | "StatusResponse" => some ⟨_, statusForm⟩
  | _ => none

end Interpose.Exchange
