/-
Interpose.Control.Backup — modules written to a file, to be put back later.

A backup document is JSON of a fixed version. What it says of a module is
what an install and a scope edit need; install numbers are not kept, for
the registry gives out its own.
-/
import Interpose.Module
import Interpose.Defaults
import Interpose.Json.Parser
import Interpose.Json.Printer
import Interpose.Json.Record

namespace Interpose.Control

/-- A module in a backup. -/
structure BackupModule where
  id : String
  enable : Bool
  priority : Int32 := 0
  entryPoints : List EntryPoint := []
  allApps : Bool := false
  scope : List ScopeTarget := []
  deriving DecidableEq, Repr, Inhabited

structure Backup where
  version : UInt32
  modules : List BackupModule
  deriving DecidableEq, Repr, Inhabited

namespace BackupModule

def ofInfo (m : ModuleInfo) : BackupModule where
  id := m.moduleId
  enable := m.enabled
  priority := m.priority
  entryPoints := m.entryPoints
  allApps := (m.scope.getD {}).allApps
  scope := (m.scope.getD {}).targets

def wireScope (m : BackupModule) : WireScope := { allApps := m.allApps, targets := m.scope }

def scopeIsEmpty (m : BackupModule) : Bool := m.wireScope.isEmpty

/-- What installs the module, disabled: it is enabled once its scope is set. -/
def toInstall (m : BackupModule) : ModuleInfo where
  moduleId := m.id
  scope := some m.wireScope
  entryPoints := m.entryPoints
  priority := m.priority

end BackupModule

namespace Backup

def ofModules (ms : List ModuleInfo) : Backup where
  version := Defaults.backupVersion
  modules := ms.map .ofInfo

/-- Keeps the modules named; no names keep all. -/
def select (b : Backup) (ids : List String) : Backup :=
  if ids.isEmpty then b else { b with modules := b.modules.filter fun m => ids.contains m.id }

/-! ## Writing -/

def entryJson (e : EntryPoint) : Json :=
  .record [("codePath", .str e.codePath), ("symbol", .str e.symbol)]

def targetJson (t : ScopeTarget) : Json :=
  .record (("package", .str t.appId) :: t.userId.elim [] fun u => [("userId", .int u.toNat)])

def moduleJson (m : BackupModule) : Json :=
  .record [("package", .str m.id), ("enable", .bool m.enable), ("priority", .int m.priority.toInt),
    ("entryPoints", .array (m.entryPoints.map entryJson)), ("allApps", .bool m.allApps),
    ("scope", .array (m.scope.map targetJson))]

def toJson (b : Backup) : Json :=
  .record [("version", .int b.version.toNat), ("modules", .array (b.modules.map moduleJson))]

/-- The content of the file. -/
def render (b : Backup) : List UInt8 := b.toJson.render ++ [10]

/-! ## Reading -/

def entryOfJson? (j : Json) : Option EntryPoint :=
  match j.fields? ["codePath", "symbol"] with
  | some [codePath, symbol] => do
    return {
      codePath := ← Json.needed Json.text? codePath
      symbol := ← Json.withDefault "" Json.text? symbol }
  | _ => none

def targetOfJson? (j : Json) : Option ScopeTarget :=
  match j.fields? ["package", "userId"] with
  | some [package, userId] => do
    return {
      appId := ← Json.needed Json.text? package
      userId := ← Json.withDefault none (Json.nullable? Json.uint32?) userId }
  | _ => none

def moduleOfJson? (j : Json) : Option BackupModule :=
  match j.fields? ["package", "enable", "priority", "entryPoints", "allApps", "scope"] with
  | some [package, enable, priority, entryPoints, allApps, scope] => do
    return {
      id := ← Json.needed Json.text? package
      enable := ← Json.needed Json.bool? enable
      priority := ← Json.withDefault 0 Json.int32? priority
      entryPoints := ← Json.withDefault [] (Json.list? entryOfJson?) entryPoints
      allApps := ← Json.withDefault false Json.bool? allApps
      scope := ← Json.withDefault [] (Json.list? targetOfJson?) scope }
  | _ => none

def ofJson? (j : Json) : Option Backup :=
  match j.fields? ["version", "modules"] with
  | some [version, modules] => do
    return {
      version := ← Json.needed Json.uint32? version
      modules := ← Json.needed (Json.list? moduleOfJson?) modules }
  | _ => none

inductive Fault where
  | malformed
  | unknownVersion (v : UInt32)
  deriving DecidableEq, Repr

def Fault.message : Fault → String
  | malformed => "not a backup document"
  | unknownVersion v => "Unknown backup file version " ++ toString v.toNat

/-- Reads a document; of another version, nothing is used. -/
def parse (bytes : List UInt8) : Except Fault Backup :=
  match (Json.parse bytes).bind ofJson? with
  | none => .error .malformed
  | some b => if b.version = Defaults.backupVersion then .ok b else .error (.unknownVersion b.version)

end Backup

end Interpose.Control
