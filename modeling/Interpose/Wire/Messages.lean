/-
Interpose.Wire.Messages — the field numbers of every message.

Where a record has one of several alternatives, each alternative is a
field of its own that sets the whole; so the last one read wins, and an
alternative that is a message merges only with itself.
-/
import Interpose.Message
import Interpose.Wire.Codec

namespace Interpose.Wire

open FieldCodec

/-! ## Shared records -/

def timestamp : Codec Timestamp where
  empty := {}
  fields := [
    scalar 1 .int64 (·.seconds) fun a x => { a with seconds := x },
    scalar 2 .int32 (·.nanos) fun a x => { a with nanos := x }]

def appDescriptor : Codec AppDescriptor where
  empty := {}
  fields := [
    text 1 (·.appId) fun a x => { a with appId := x },
    scalar 2 .uint32 (·.userId) fun a x => { a with userId := x },
    text 3 (·.processName) fun a x => { a with processName := x }]

def scopeTarget : Codec ScopeTarget where
  empty := {}
  fields := [
    text 1 (·.appId) fun a x => { a with appId := x },
    optional 2 .uint32 (·.userId) fun a x => { a with userId := some x }]

def scope : Codec WireScope where
  empty := {}
  fields := [
    scalar 1 .bool (·.allApps) fun a x => { a with allApps := x },
    messages 2 scopeTarget (·.targets) fun a x => { a with targets := x }]

def entryPoint : Codec EntryPoint where
  empty := {}
  fields := [
    text 1 (·.codePath) fun a x => { a with codePath := x },
    text 2 (·.symbol) fun a x => { a with symbol := x }]

def moduleInfo : Codec ModuleInfo where
  empty := {}
  fields := [
    text 1 (·.moduleId) fun a x => { a with moduleId := x },
    scalar 2 .bool (·.enabled) fun a x => { a with enabled := x },
    message 3 scope (·.scope) fun a x => { a with scope := some x },
    messages 4 entryPoint (·.entryPoints) fun a x => { a with entryPoints := x },
    scalar 5 .int32 (·.priority) fun a x => { a with priority := x },
    scalar 6 .uint64 (·.installSeq) fun a x => { a with installSeq := x }]

def diagnostic : Codec Diagnostic where
  empty := {}
  fields := [
    scalar 1 .int32 (·.kind) fun a x => { a with kind := x },
    text 2 (·.detail) fun a x => { a with detail := x },
    text 3 (·.method) fun a x => { a with method := x }]

def logEntry : Codec LogEntry where
  empty := {}
  fields := [
    scalar 1 .int64 (·.id) fun a x => { a with id := x },
    message 2 timestamp (·.ts) fun a x => { a with ts := some x },
    scalar 3 .uint32 (·.pid) fun a x => { a with pid := x },
    text 4 (·.moduleId) fun a x => { a with moduleId := x },
    scalar 5 .int32 (·.event) fun a x => { a with event := x },
    text 6 (·.detail) fun a x => { a with detail := x }]

def sessionSummary : Codec SessionSummary where
  empty := {}
  fields := [
    scalar 1 .uint32 (·.pid) fun a x => { a with pid := x },
    message 2 appDescriptor (·.app) fun a x => { a with app := some x },
    texts 3 (·.moduleIds) fun a x => { a with moduleIds := x },
    scalar 4 .uint64 (·.registryVersion) fun a x => { a with registryVersion := x },
    message 5 timestamp (·.registeredAt) fun a x => { a with registeredAt := some x },
    message 6 timestamp (·.lastSeen) fun a x => { a with lastSeen := some x },
    texts 7 (·.staleModuleIds) fun a x => { a with staleModuleIds := x },
    texts 8 (·.failedModuleIds) fun a x => { a with failedModuleIds := x }]

/-! ## Calls of a process -/

def scopeQuery : Codec ScopeQuery where
  empty := {}
  fields := [message 1 appDescriptor (·.app) fun a x => { a with app := some x }]

def scopeAnswer : Codec ScopeAnswer where
  empty := {}
  fields := [
    scalar 1 .uint64 (·.registryVersion) fun a x => { a with registryVersion := x },
    messages 2 moduleInfo (·.modules) fun a x => { a with modules := x }]

def registration : Codec Registration where
  empty := {}
  fields := [
    scalar 1 .uint32 (·.pid) fun a x => { a with pid := x },
    message 2 appDescriptor (·.app) fun a x => { a with app := some x },
    texts 3 (·.moduleIds) fun a x => { a with moduleIds := x },
    scalar 4 .uint64 (·.registryVersion) fun a x => { a with registryVersion := x },
    texts 5 (·.failedModuleIds) fun a x => { a with failedModuleIds := x }]

def registrationAnswer : Codec RegistrationAnswer where
  empty := {}
  fields := [
    text 1 (·.livenessToken) fun a x => { a with livenessToken := x },
    scalar 2 .uint64 (·.registryVersion) fun a x => { a with registryVersion := x }]

def failureReport : Codec FailureReport where
  empty := {}
  fields := [
    scalar 1 .uint32 (·.pid) fun a x => { a with pid := x },
    text 2 (·.moduleId) fun a x => { a with moduleId := x },
    message 3 diagnostic (·.diagnostic) fun a x => { a with diagnostic := some x }]

def ack : Codec Ack where
  empty := {}
  fields := [scalar 1 .uint64 (·.registryVersion) fun a x => { a with registryVersion := x }]

def heartbeat : Codec Heartbeat where
  empty := {}
  fields := [
    scalar 1 .uint32 (·.pid) fun a x => { a with pid := x },
    text 2 (·.livenessToken) fun a x => { a with livenessToken := x }]

def heartbeatAnswer : Codec HeartbeatAnswer where
  empty := {}
  fields := [
    scalar 1 .bool (·.known) fun a x => { a with known := x },
    scalar 2 .uint64 (·.registryVersion) fun a x => { a with registryVersion := x }]

/-! ## Calls of a client -/

def ask : Codec Ask where
  empty := {}
  fields := []

def sessionList : Codec SessionList where
  empty := {}
  fields := [
    scalar 1 .uint64 (·.registryVersion) fun a x => { a with registryVersion := x },
    messages 2 sessionSummary (·.sessions) fun a x => { a with sessions := x }]

def registryListing : Codec RegistryListing where
  empty := {}
  fields := [
    scalar 1 .uint64 (·.registryVersion) fun a x => { a with registryVersion := x },
    messages 2 moduleInfo (·.modules) fun a x => { a with modules := x }]

def moduleRef : Codec ModuleRef where
  empty := {}
  fields := [text 1 (·.moduleId) fun a x => { a with moduleId := x }]

def scopeEdit : Codec ScopeEdit where
  empty := {}
  fields := [
    text 1 (·.moduleId) fun a x => { a with moduleId := x },
    scalar 2 .int32 (·.mode) fun a x => { a with mode := x },
    message 3 scope (·.scope) fun a x => { a with scope := some x }]

def priorityEdit : Codec PriorityEdit where
  empty := {}
  fields := [
    text 1 (·.moduleId) fun a x => { a with moduleId := x },
    scalar 2 .int32 (·.priority) fun a x => { a with priority := x }]

def mutationRequest : Codec MutationRequest where
  empty := {}
  fields := [
    message 1 moduleInfo
      (fun a => match a.op with | some (.install m) => some m | _ => none)
      fun _ m => { op := some (.install m) },
    message 2 moduleRef
      (fun a => match a.op with | some (.uninstall r) => some r | _ => none)
      fun _ r => { op := some (.uninstall r) },
    message 3 moduleRef
      (fun a => match a.op with | some (.enable r) => some r | _ => none)
      fun _ r => { op := some (.enable r) },
    message 4 moduleRef
      (fun a => match a.op with | some (.disable r) => some r | _ => none)
      fun _ r => { op := some (.disable r) },
    message 5 scopeEdit
      (fun a => match a.op with | some (.setScope e) => some e | _ => none)
      fun _ e => { op := some (.setScope e) },
    message 6 priorityEdit
      (fun a => match a.op with | some (.setPriority e) => some e | _ => none)
      fun _ e => { op := some (.setPriority e) }]

def mutationAnswer : Codec MutationAnswer where
  empty := {}
  fields := [
    scalar 1 .uint64 (·.registryVersion) fun a x => { a with registryVersion := x },
    message 2 moduleInfo (·.touched) fun a x => { a with touched := some x }]

def watchRequest : Codec WatchRequest where
  empty := {}
  fields := [scalar 1 .bool (·.includeLog) fun a x => { a with includeLog := x }]

def watchEvent : Codec WatchEvent where
  empty := {}
  fields := [
    optional 1 .uint64
      (fun a => match a.event with | some (.registryVersion v) => some v | _ => none)
      fun _ v => { event := some (.registryVersion v) },
    message 2 logEntry
      (fun a => match a.event with | some (.log e) => some e | _ => none)
      fun _ e => { event := some (.log e) }]

def logQuery : Codec LogQuery where
  empty := {}
  fields := [
    scalar 1 .uint32 (·.limit) fun a x => { a with limit := x },
    scalar 2 .int64 (·.sinceId) fun a x => { a with sinceId := x }]

def logPage : Codec LogPage where
  empty := {}
  fields := [messages 1 logEntry (·.entries) fun a x => { a with entries := x }]

def daemonStatus : Codec DaemonStatus where
  empty := {}
  fields := [
    text 1 (·.daemonVersion) fun a x => { a with daemonVersion := x },
    scalar 2 .uint64 (·.registryVersion) fun a x => { a with registryVersion := x },
    scalar 3 .uint32 (·.moduleCount) fun a x => { a with moduleCount := x },
    scalar 4 .uint32 (·.enabledCount) fun a x => { a with enabledCount := x },
    scalar 5 .uint32 (·.sessionCount) fun a x => { a with sessionCount := x },
    text 6 (·.registryWarning) fun a x => { a with registryWarning := x },
    message 7 timestamp (·.startedAt) fun a x => { a with startedAt := some x }]

end Interpose.Wire
