/-
Interpose.Registry.Mutation — changes of the registry.

A change either gives the next document or says why it cannot be made.
-/
import Interpose.Registry.Document
import Interpose.Text.Blank

namespace Interpose.Registry

inductive Mutation where
  | install (m : Module)
  | uninstall (id : String)
  | enable (id : String)
  | disable (id : String)
  | setScope (id : String) (mode : ScopeMode) (scope : ModuleScope)
  | setPriority (id : String) (priority : Int32)
  deriving DecidableEq, Repr

namespace Mutation

def moduleId : Mutation → String
  | install m => m.id
  | uninstall id | enable id | disable id | setScope id _ _ | setPriority id _ => id

def verb : Mutation → String
  | install _ => "install"
  | uninstall _ => "uninstall"
  | enable _ => "enable"
  | disable _ => "disable"
  | setScope _ _ _ => "set_scope"
  | setPriority _ _ => "set_priority"

end Mutation

/-! ## What cannot be installed -/

inductive Unfit where
  | blankId
  | noEntryPoints
  | blankCodePath
  deriving DecidableEq, Repr

def Unfit.reason : Unfit → String
  | blankId => "module id is empty"
  | noEntryPoints => "no entry points"
  | blankCodePath => "entry point with empty code path"

/-- What is wrong with a module that is to be installed. An empty symbol is
not: the loader has one of its own. -/
def unfit? (m : Module) : Option Unfit :=
  if Text.allBlank m.id.toList then some .blankId
  else if m.entryPoints.isEmpty then some .noEntryPoints
  else if m.entryPoints.any fun e => Text.allBlank e.codePath.toList then some .blankCodePath
  else none

/-- Why a change cannot be made. -/
inductive Refusal where
  | unknownModule (id : String)
  | invalid (id : String) (why : Unfit)
  deriving DecidableEq, Repr

def Refusal.message : Refusal → String
  | unknownModule id => "unknown module '" ++ id ++ "'"
  | invalid id why => "invalid module '" ++ id ++ "': " ++ why.reason

/-! ## Making a change -/

namespace Document

/-- Changes a module that must be there. -/
def adjust (d : Document) (id : String) (f : Module → Module) : Except Refusal Document :=
  match d.get? id with
  | none => .error (.unknownModule id)
  | some m => .ok { d with modules := d.modules.insert id (f m) }

/-- Puts a module in. One that is there already keeps its number, its scope
and whether it is enabled; a new one gets the next number. -/
def install (d : Document) (m : Module) : Document :=
  match d.get? m.id with
  | some old =>
    let updated : Module := { old with entryPoints := m.entryPoints, priority := m.priority }
    { d with modules := d.modules.insert m.id updated }
  | none =>
    let seq := d.nextSeq + 1
    { d with nextSeq := seq, modules := d.modules.insert m.id { m with installSeq := seq } }

/-- The modules after a change; the version is left as it is. -/
def change (d : Document) : Mutation → Except Refusal Document
  | .install m =>
    match unfit? m with
    | some why => .error (.invalid m.id why)
    | none => .ok (d.install m)
  | .uninstall id =>
    match d.get? id with
    | none => .error (.unknownModule id)
    | some _ => .ok { d with modules := d.modules.erase id }
  | .enable id => d.adjust id fun m => { m with enabled := true }
  | .disable id => d.adjust id fun m => { m with enabled := false }
  | .setScope id mode scope => d.adjust id fun m => { m with scope := m.scope.edit mode scope }
  | .setPriority id priority => d.adjust id fun m => { m with priority }

/-- The next document: changed, and one version further. -/
def next (d : Document) (m : Mutation) : Except Refusal Document :=
  (d.change m).map fun d => { d with version := d.version + 1 }

end Document

end Interpose.Registry
