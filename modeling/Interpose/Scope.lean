/-
Interpose.Scope — which applications a module may affect.

Two forms of a scope are in use. A `WireScope` is the record that travels
between processes: a flag and a list, where the list means nothing once
the flag is set. A `ModuleScope` is the form the registry keeps, with the
two cases apart. Both answer the same question, `covers`, and the
conversions below carry one answer into the other.
-/
import Interpose.App

namespace Interpose

/-! ## Targets -/

/-- One application, for one user or, with no user named, for all of them. -/
structure ScopeTarget where
  appId : String := ""
  userId : Option UInt32 := none
  deriving DecidableEq, Repr, Inhabited

/-- A target covers a process of its application whose user it names or leaves open. -/
def ScopeTarget.covers (t : ScopeTarget) (app : AppDescriptor) : Bool :=
  t.appId == app.appId && t.userId.all (· == app.userId)

/-! ## The record that travels -/

structure WireScope where
  allApps : Bool := false
  targets : List ScopeTarget := []
  deriving DecidableEq, Repr, Inhabited

namespace WireScope

/-- Every application. -/
def all : WireScope := { allApps := true }

def covers (s : WireScope) (app : AppDescriptor) : Bool :=
  s.allApps || s.targets.any (·.covers app)

/-- A scope that covers no process at all. -/
def isEmpty (s : WireScope) : Bool := !s.allApps && s.targets.isEmpty

end WireScope

/-! ## The form the registry keeps -/

inductive ModuleScope where
  /-- Every application. -/
  | all
  /-- The applications listed, in the order they were added. -/
  | apps (targets : List ScopeTarget)
  deriving DecidableEq, Repr

instance : Inhabited ModuleScope := ⟨.apps []⟩

namespace ModuleScope

def covers : ModuleScope → AppDescriptor → Bool
  | all, _ => true
  | apps targets, app => targets.any (·.covers app)

/-- Adds each new target once, at the end. -/
def addTargets (targets : List ScopeTarget) (extra : List ScopeTarget) : List ScopeTarget :=
  extra.foldl (fun ts t => if ts.contains t then ts else ts ++ [t]) targets

/-- Widens a scope. Nothing can be added to every application, and adding
every application gives just that. -/
def append : ModuleScope → ModuleScope → ModuleScope
  | all, _ => all
  | apps _, all => all
  | apps targets, apps extra => apps (addTargets targets extra)

/-- Narrows a scope. Taking away every application leaves none, and taking
single targets from every application changes nothing, because there is no
list to take them from. -/
def remove : ModuleScope → ModuleScope → ModuleScope
  | _, all => apps []
  | all, apps _ => all
  | apps targets, apps gone => apps (targets.filter fun t => !gone.contains t)

/-- The registry's form of a record: the flag wins over the list. -/
def ofWire (s : WireScope) : ModuleScope :=
  if s.allApps then all else apps s.targets

/-- The record of a registry scope. -/
def toWire : ModuleScope → WireScope
  | all => WireScope.all
  | apps targets => { targets }

end ModuleScope

/-! ## Edits -/

/-- What an edit does with the scope it brings. -/
inductive ScopeMode where
  | replace
  | append
  | remove
  deriving DecidableEq, Repr, Inhabited

namespace ScopeMode

/-- The number that stands for a mode in a message. -/
def code : ScopeMode → Int32
  | replace => 0
  | append => 1
  | remove => 2

def ofCode? (n : Int32) : Option ScopeMode :=
  [replace, append, remove].find? (·.code == n)

theorem ofCode?_code (m : ScopeMode) : ofCode? m.code = some m := by cases m <;> decide

end ScopeMode

/-- One edit of a scope. -/
def ModuleScope.edit (s : ModuleScope) (mode : ScopeMode) (given : ModuleScope) : ModuleScope :=
  match mode with
  | .replace => given
  | .append => s.append given
  | .remove => s.remove given

end Interpose
