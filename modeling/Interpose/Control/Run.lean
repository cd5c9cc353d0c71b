/-
Interpose.Control.Run — what the commands of the tool do.

Most commands are one call and a line. The four that change a module in
several calls keep to one rule: a module whose scope is empty is not
enabled. They look before they enable, and disable what they have emptied;
what was done before a call fails stays done.
-/
import Interpose.Control.Manager
import Interpose.Control.Command
import Interpose.Control.Backup
import Interpose.Control.Follow

namespace Interpose.Control

open Act (call print)

variable {σ : Type}

/-! ## Common steps -/

/-- Every module there is. -/
def listing (m : Manager σ) : Act σ (List ModuleInfo) := do
  return (← call m.registry).modules

def change (m : Manager σ) (op : MutationOp) : Act σ MutationAnswer := call (m.mutate { op := some op })

def find? (ms : List ModuleInfo) (id : String) : Option ModuleInfo := ms.find? (·.moduleId == id)

/-- A missing scope is as good as an empty one. -/
def hasNoScope (m : ModuleInfo) : Bool := m.scope.all (·.isEmpty)

def versionText (v : UInt64) : String := "(registry version " ++ toString v.toNat ++ ")"

/-! ## Status, sessions, log -/

def statusLines (endpoint : String) (s : DaemonStatus) : List String :=
  ["daemon            modhookd " ++ s.daemonVersion ++ " at " ++ endpoint,
   "started           " ++ timeText s.startedAt,
   "registry version  " ++ toString s.registryVersion.toNat,
   "modules           " ++ toString s.moduleCount.toNat ++ " (" ++ toString s.enabledCount.toNat
     ++ " enabled)",
   "sessions          " ++ toString s.sessionCount.toNat]
    ++ (if s.registryWarning.isEmpty then [] else ["warning           " ++ s.registryWarning])

def showStatus (m : Manager σ) (endpoint : String) : Act σ Unit := do
  (statusLines endpoint (← call m.status)).forM print

def sessionHeader : String :=
  Text.alignRight 7 "pid" ++ "  " ++ Text.alignLeft 32 "app" ++ " " ++ Text.alignRight 7 "version"
    ++ "  modules"

def sessionLine (s : SessionSummary) : String :=
  let app := s.app.elim "-" fun a => a.appId ++ "/" ++ toString a.userId.toNat
  let listed (name : String) (ids : List String) : String :=
    if ids.isEmpty then "" else "  " ++ name ++ ": " ++ ",".intercalate ids
  Text.alignRight 7 (toString s.pid.toNat) ++ "  " ++ Text.alignLeft 32 app ++ " "
    ++ Text.alignRight 7 (toString s.registryVersion.toNat) ++ "  " ++ ",".intercalate s.moduleIds
    ++ listed "stale" s.staleModuleIds ++ listed "failed" s.failedModuleIds

def showSessions (m : Manager σ) : Act σ Unit := do
  let sessions := (← call m.sessions).sessions
  print sessionHeader
  (sessions.map sessionLine).forM print

/-- Prints what is in the log; whoever follows it is listening by then. -/
def showLog (m : Manager σ) (follow : Bool) (limit : UInt32) : Act σ Follower := do
  if follow then call (m.watch { includeLog := true })
  let f := Follower.history (← call (m.readLog { limit, sinceId := 0 })).entries
  f.lines.forM print
  return f

/-! ## Modules -/

def moduleLine (m : ModuleInfo) : String :=
  Text.alignLeft 40 m.moduleId ++ " " ++ Text.alignRight 10 (toString m.priority.toInt) ++ " "
    ++ Text.alignLeft 8 (if m.enabled then "enable" else "disable")

def listModules (m : Manager σ) (enabled disabled : Bool) : Act σ Unit := do
  let kept := (← listing m).filter fun i => (!enabled || i.enabled) && (!disabled || !i.enabled)
  (kept.map moduleLine).forM print

/-- Enables or disables one module, as it was when the command began. -/
def setModule (m : Manager σ) (enable : Bool) (info : ModuleInfo) : Act σ Unit := do
  let id := info.moduleId
  if enable && hasNoScope info then throw (.emptyScope id)
  let verb := if enable then "enable" else "disable"
  let op := if enable then MutationOp.enable { moduleId := id } else .disable { moduleId := id }
  let answer ← (change m op).blaming fun e =>
    .enableDisable ("Failed to " ++ verb ++ " " ++ id ++ ": " ++ e.message)
  print (id ++ " " ++ verb ++ "d " ++ versionText answer.registryVersion)

/-- Enables or disables modules; ids that nobody has are passed over. -/
def setModules (m : Manager σ) (enable : Bool) (ids : List String) : Act σ Unit := do
  let known ← listing m
  (ids.filterMap (find? known)).forM (setModule m enable)

/-- Installs a module. One that is there already keeps its state and scope
unless the command says otherwise. -/
def installModule (m : Manager σ) (id : String) (entries : List EntryPoint) (priority : Int32)
    (targets : List Target) (enable : Bool) : Act σ Unit := do
  let scope := Target.scopeOf targets
  if enable && scope.isEmpty then throw (.emptyScope id)
  let existed := (find? (← listing m) id).isSome
  let installed ← change m (.install {
    moduleId := id, enabled := enable, scope := some scope, entryPoints := entries, priority })
  let placed ← if existed && !targets.isEmpty then
      change m (.setScope { moduleId := id, mode := ScopeMode.replace.code, scope := some scope })
    else pure installed
  let last ← if existed && enable then change m (.enable { moduleId := id }) else pure placed
  print ((if existed then "Updated " else "Installed ") ++ id ++ " "
    ++ versionText last.registryVersion)

def uninstallModule (m : Manager σ) (id : String) : Act σ Unit := do
  let answer ← change m (.uninstall { moduleId := id })
  print ("Uninstalled " ++ id ++ " " ++ versionText answer.registryVersion)

def setPriority (m : Manager σ) (id : String) (priority : Int32) : Act σ Unit := do
  let answer ← change m (.setPriority { moduleId := id, priority })
  print (id ++ " priority " ++ toString priority.toInt ++ " " ++ versionText answer.registryVersion)

/-! ## Scopes -/

/-- The lines of a scope; read as targets they give the scope again. -/
def scopeLines (s : WireScope) : List String :=
  (if s.allApps then ["*"] else []) ++ s.targets.map Target.label

def listScope (m : Manager σ) (id : String) : Act σ Unit := do
  match find? (← listing m) id with
  | none => throw (.lsScope ("unknown module '" ++ id ++ "'"))
  | some info => (scopeLines (info.scope.getD {})).forM print

/-- Edits a scope. A module that is enabled and has no scope any more is
disabled. -/
def setScope (m : Manager σ) (mode : ScopeMode) (id : String) (targets : List Target) :
    Act σ Unit := do
  let edit : MutationOp :=
    .setScope { moduleId := id, mode := mode.code, scope := some (Target.scopeOf targets) }
  let edited ← (change m edit).blaming fun e =>
    .setScope ("Failed to set scope for " ++ id ++ ": " ++ e.message)
  let exposed := edited.touched.any fun i => i.enabled && hasNoScope i
  let last ← if exposed then
      (change m (.disable { moduleId := id })).blaming fun e =>
        .setScope ("Failed to disable " ++ id ++ ": " ++ e.message)
    else pure edited
  print (id ++ " scope updated " ++ versionText last.registryVersion)

/-! ## Backup and restore -/

/-- The file a backup goes to unless the line names one. -/
def backupName (now : DateTime) : String :=
  let digits (s : String) : String := String.ofList (s.toList.filter Char.isDigit)
  "modhook_" ++ digits now.dateText ++ "_" ++ digits now.clockText ++ ".json"

def writeBackup (m : Manager σ) (file : Option String) (ids : List String) : Act σ Unit := do
  let b := (Backup.ofModules (← listing m)).select ids
  let path := file.getD (backupName (← get).clock.date)
  Act.writeFile path b.render
  print (toString b.modules.length ++ " modules written to " ++ path)

/-- Puts one module back: the code, then the scope, then whether it is
enabled. Answers whether there was anything to put back. -/
def restoreModule (m : Manager σ) (installed : Bool) (b : BackupModule) : Act σ Bool := do
  if b.entryPoints.isEmpty && !installed then return false
  if !b.entryPoints.isEmpty then discard (change m (.install b.toInstall))
  discard (change m (.setScope {
    moduleId := b.id, mode := ScopeMode.replace.code, scope := some b.wireScope }))
  discard (change m (if b.enable && !b.scopeIsEmpty then .enable { moduleId := b.id }
    else .disable { moduleId := b.id }))
  return true

/-- Reads a backup; of the modules in it those that are named, or all. -/
def readBackup (file : String) (ids : List String) : Act σ Backup := do
  match Backup.parse (← Act.readFile file).toUTF8.toList with
  | .ok b => return b.select ids
  | .error e => throw (.backup e.message)

def restoreBackup (m : Manager σ) (file : String) (ids : List String) : Act σ Unit := do
  let b ← readBackup file ids
  let known ← listing m
  let done ← b.modules.mapM fun x => restoreModule m (find? known x.id).isSome x
  print (toString (done.countP id) ++ " modules restored from " ++ file)

/-! ## Every command -/

/-- Runs a command against the daemon at an endpoint. -/
def Command.run (m : Manager σ) (endpoint : String) : Command → Act σ Unit
  | .status => showStatus m endpoint
  | .sessions => showSessions m
  | .modulesList e d => listModules m e d
  | .modulesSet e _ _ ids => setModules m e ids
  | .modulesInstall id entries priority targets e => installModule m id entries priority targets e
  | .modulesUninstall id => uninstallModule m id
  | .modulesPriority id priority => setPriority m id priority
  | .scopeList id => listScope m id
  | .scopeSet _ a r id targets => setScope m (scopeMode a r) id targets
  | .log follow limit => discard (showLog m follow limit)
  | .backup file ids => writeBackup m file ids
  | .restore file ids => restoreBackup m file ids

end Interpose.Control
