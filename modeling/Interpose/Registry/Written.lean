/-
Interpose.Registry.Written — modules as the registry writes them down.

Writing gives every field in a fixed order. Reading is more lenient: fields
nobody knows are passed over, the scope, the priority and the install
number may be missing, and a record may also be an array of its fields.
-/
import Interpose.Module
import Interpose.Json.Record
import Interpose.Json.Printer

namespace Interpose

/-! ## Writing -/

def ScopeTarget.toJson (t : ScopeTarget) : Json :=
  .record (("app_id", .str t.appId) :: t.userId.elim [] fun u => [("user_id", .int u.toNat)])

def ModuleScope.toJson : ModuleScope → Json
  | all => .record [("kind", .str "all")]
  | apps targets => .record [("kind", .str "apps"), ("targets", .array (targets.map (·.toJson)))]

def EntryPoint.toJson (e : EntryPoint) : Json :=
  .record [("code_path", .str e.codePath), ("symbol", .str e.symbol)]

def Module.toJson (m : Module) : Json :=
  .record [("id", .str m.id), ("enabled", .bool m.enabled), ("scope", m.scope.toJson),
    ("entry_points", .array (m.entryPoints.map (·.toJson))), ("priority", .int m.priority.toInt),
    ("install_seq", .int m.installSeq.toNat)]

/-! ## Reading -/

def ScopeTarget.ofJson? (j : Json) : Option ScopeTarget :=
  match j.fields? ["app_id", "user_id"] with
  | some [appId, userId] => do
    return {
      appId := ← Json.needed Json.text? appId
      userId := ← Json.withDefault none (Json.nullable? Json.uint32?) userId }
  | _ => none

/-- The two kinds of scope. -/
inductive ScopeKind where
  | all
  | apps

/-- The name of a kind; an object of this one name and null says the same. -/
def ScopeKind.ofJson? : Json → Option ScopeKind
  | .text (some "all") => some .all
  | .text (some "apps") => some .apps
  | .object [(some "all", .null)] => some .all
  | .object [(some "apps", .null)] => some .apps
  | _ => none

/-- A scope of a known kind, from its targets. Every application has none. -/
def ModuleScope.ofParts? : ScopeKind → Option Json → Option ModuleScope
  | .all, none => some .all
  | .all, some .null => some .all
  | .all, some _ => none
  | .apps, none => none
  | .apps, some j => (j.list? ScopeTarget.ofJson?).map .apps

/-- Whether targets stand in front of the kind, where nobody can tell yet
what they must look like. -/
def targetsFirst (members : List (Option String × Json)) : Bool :=
  ((members.map (·.1)).find? fun k => k == some "kind" || k == some "targets") == some (some "targets")

/-- A scope that `depth` arrays and objects enclose. -/
def ModuleScope.ofJson? (depth : Nat) (j : Json) : Option ModuleScope :=
  match j with
  | .array items =>
    match items with
    | [kind, targets] => (ScopeKind.ofJson? kind).bind (ofParts? · (some targets))
    | _ => none
  | .object members =>
    match j.fields? ["kind", "targets"] with
    | some [some kind, targets] =>
      if targetsFirst members && !(targets.getD .null).keepable (Json.depthLimit - depth - 1) then none
      else (ScopeKind.ofJson? kind).bind (ofParts? · targets)
    | _ => none
  | _ => none

def EntryPoint.ofJson? (j : Json) : Option EntryPoint :=
  match j.fields? ["code_path", "symbol"] with
  | some [codePath, symbol] => do
    return { codePath := ← Json.needed Json.text? codePath, symbol := ← Json.needed Json.text? symbol }
  | _ => none

/-- A module that `depth` arrays and objects enclose. -/
def Module.ofJson? (depth : Nat) (j : Json) : Option Module :=
  match j.fields? ["id", "enabled", "scope", "entry_points", "priority", "install_seq"] with
  | some [id, enabled, scope, entryPoints, priority, installSeq] => do
    return {
      id := ← Json.needed Json.text? id
      enabled := ← Json.needed Json.bool? enabled
      scope := ← Json.withDefault (.apps []) (ModuleScope.ofJson? (depth + 1)) scope
      entryPoints := ← Json.needed (Json.list? EntryPoint.ofJson?) entryPoints
      priority := ← Json.withDefault 0 Json.int32? priority
      installSeq := ← Json.withDefault 0 Json.uint64? installSeq }
  | _ => none

end Interpose
