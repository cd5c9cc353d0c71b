/-
Interpose.Module — modules, and the order they are applied in.

A `ModuleInfo` is the record that travels; a `Module` is what the registry
keeps. The record's scope may be missing, the registry's may not: a
missing scope is read as the empty one.
-/
import Interpose.Scope

namespace Interpose

/-- Code to load, and the symbol in it to call. An empty symbol leaves the
choice to the loader. -/
structure EntryPoint where
  codePath : String := ""
  symbol : String := ""
  deriving DecidableEq, Repr, Inhabited

/-- A module as it travels between processes. -/
structure ModuleInfo where
  moduleId : String := ""
  enabled : Bool := false
  scope : Option WireScope := none
  entryPoints : List EntryPoint := []
  priority : Int32 := 0
  installSeq : UInt64 := 0
  deriving DecidableEq, Repr, Inhabited

/-- A module as the registry keeps it. -/
structure Module where
  id : String
  enabled : Bool
  scope : ModuleScope := .apps []
  entryPoints : List EntryPoint
  priority : Int32 := 0
  /-- Given by the registry on the first install; decides between equal priorities. -/
  installSeq : UInt64 := 0
  deriving DecidableEq, Repr, Inhabited

/-! ## Conversions -/

def Module.ofInfo (m : ModuleInfo) : Module where
  id := m.moduleId
  enabled := m.enabled
  scope := m.scope.elim (.apps []) ModuleScope.ofWire
  entryPoints := m.entryPoints
  priority := m.priority
  installSeq := m.installSeq

def Module.toInfo (m : Module) : ModuleInfo where
  moduleId := m.id
  enabled := m.enabled
  scope := some m.scope.toWire
  entryPoints := m.entryPoints
  priority := m.priority
  installSeq := m.installSeq

/-! ## Which processes carry a module -/

/-- The registry's view: an enabled module whose scope covers the process. -/
def Module.appliesTo (m : Module) (app : AppDescriptor) : Bool :=
  m.enabled && m.scope.covers app

/-- The process's own view of a record it was offered. -/
def ModuleInfo.appliesTo (m : ModuleInfo) (app : AppDescriptor) : Bool :=
  m.enabled && m.scope.any (·.covers app)

/-! ## Order of application

Higher priorities come first, then earlier installs, then smaller ids by
their UTF-8 bytes, which is the order of their code points. -/

/-- Whether the first of two modules may stand before the second, told from
the three numbers that decide it. -/
def appliesBefore (p q : Int32) (i j : UInt64) (a b : String) : Bool :=
  q < p || (p == q && (i < j || (i == j && a ≤ b)))

def Module.before (a b : Module) : Bool :=
  appliesBefore a.priority b.priority a.installSeq b.installSeq a.id b.id

def ModuleInfo.before (a b : ModuleInfo) : Bool :=
  appliesBefore a.priority b.priority a.installSeq b.installSeq a.moduleId b.moduleId

/-- The registry's order of application; equal modules keep their order. -/
def Module.inOrder (ms : List Module) : List Module := ms.mergeSort Module.before

/-- The process's order of application. -/
def ModuleInfo.inOrder (ms : List ModuleInfo) : List ModuleInfo := ms.mergeSort ModuleInfo.before

end Interpose
