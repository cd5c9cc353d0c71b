/-
Interpose.Diagnostic — what can go wrong, and how it is named.
-/
namespace Interpose

/-- The kinds of diagnostic. Each has a number for messages and a name for
the log. -/
inductive DiagnosticKind where
  | unspecified
  | scopeUnreachable
  | moduleLoadFailure
  | hookInstallFailure
  | registryCorruption
  | sessionRegistered
  | sessionExpired
  | registryMutated
  deriving DecidableEq, Repr, Inhabited

namespace DiagnosticKind

def every : List DiagnosticKind :=
  [unspecified, scopeUnreachable, moduleLoadFailure, hookInstallFailure, registryCorruption,
   sessionRegistered, sessionExpired, registryMutated]

def code : DiagnosticKind → Int32
  | unspecified => 0
  | scopeUnreachable => 1
  | moduleLoadFailure => 2
  | hookInstallFailure => 3
  | registryCorruption => 4
  | sessionRegistered => 5
  | sessionExpired => 6
  | registryMutated => 7

def name : DiagnosticKind → String
  | unspecified => "unspecified"
  | scopeUnreachable => "scope_unreachable"
  | moduleLoadFailure => "module_load_failure"
  | hookInstallFailure => "hook_install_failure"
  | registryCorruption => "registry_corruption"
  | sessionRegistered => "session_registered"
  | sessionExpired => "session_expired"
  | registryMutated => "registry_mutated"

def ofCode? (n : Int32) : Option DiagnosticKind := every.find? (·.code == n)

def ofName? (s : String) : Option DiagnosticKind := every.find? (·.name == s)

theorem ofCode?_code (k : DiagnosticKind) : ofCode? k.code = some k := by cases k <;> decide

theorem ofName?_name (k : DiagnosticKind) : ofName? k.name = some k := by cases k <;> decide

end DiagnosticKind

/-- A failure told about one module. The kind travels as a number, so that a
number nobody knows can still be passed on. -/
structure Diagnostic where
  kind : Int32 := 0
  detail : String := ""
  /-- The method concerned; empty when the whole module is. -/
  method : String := ""
  deriving DecidableEq, Repr, Inhabited

/-- A diagnostic of a known kind. -/
def Diagnostic.of (kind : DiagnosticKind) (detail : String) (method : String := "") : Diagnostic :=
  { kind := kind.code, detail, method }

end Interpose
