/-
Interpose.Apply — bringing modules into a process.

Modules are applied in the order of their priorities, whatever order they
come in. Each is on its own: one that cannot be loaded, or whose callback
fails or panics, is dropped, the layers it had installed so far are taken
out again, and the next one has its turn.
-/
import Interpose.Apply.Loader
import Interpose.Apply.Session

namespace Interpose

/-! ## Reports -/

/-- A diagnostic about one module. -/
structure ModuleDiagnostic where
  moduleId : String
  diagnostic : Diagnostic
  deriving DecidableEq, Repr, Inhabited

structure ApplyReport where
  /-- Modules whose callbacks completed, in order of application. -/
  applied : List String := []
  /-- Modules that were dropped, each with its reason. -/
  failed : List ModuleDiagnostic := []
  /-- Requests refused to modules that were applied all the same. -/
  diagnostics : List ModuleDiagnostic := []
  deriving DecidableEq, Repr, Inhabited

namespace ApplyReport

def isClean (r : ApplyReport) : Bool := r.failed.isEmpty && r.diagnostics.isEmpty

/-- Everything the daemon should hear of. -/
def reportable (r : ApplyReport) : List ModuleDiagnostic := r.failed ++ r.diagnostics

end ApplyReport

/-! ## One module -/

/-- Why a module is dropped. -/
inductive ModuleFailure where
  | noEntryPoints
  | load (codePath : String) (e : LoadError)
  | init (chain : List String)
  | panic (message : Option String)
  deriving DecidableEq, Repr

def ModuleFailure.detail : ModuleFailure → String
  | noEntryPoints => "module declares no entry points"
  | load path e => path ++ ": " ++ e.message
  | init chain => "init failed: " ++ ": ".intercalate chain
  | panic message => "init panicked: " ++ message.getD "non-string panic payload"

/-- How the entry points of a module end: all of them completed, one of
them failed, or the code that loads one panicked, which nobody catches. -/
inductive EntriesEnd where
  | completed
  | failed (why : ModuleFailure)
  | unwound (message : Option String)
  deriving DecidableEq, Repr

namespace Host

variable {ν σ : Type}

/-- Loads and runs entry points one after the other, up to the first that fails. -/
def runEntries (ctx : HookContext) (source : Source ν σ) :
    List EntryPoint → InitRecord → σ → Host ν → Ran ν ((EntriesEnd × InitRecord) × σ)
  | [], r, s, p => some (((.completed, r), s), p)
  | e :: es, r, s, p =>
    match source e s with
    | (.refused err, s) => some (((.failed (.load e.codePath err), r), s), p)
    | (.panicked message, s) => some (((.unwound message, r), s), p)
    | (.ready init, s) =>
      (ctx.run (enter callDepth) init {} p).bind fun
        | ((ended, mine), p) =>
          let r : InitRecord := {
            installed := r.installed ++ mine.installed
            diagnostics := r.diagnostics ++ mine.diagnostics }
          match ended with
          | .completed => runEntries ctx source es r s p
          | .failed chain => some (((.failed (.init chain), r), s), p)
          | .panicked message => some (((.failed (.panic message), r), s), p)

/-- How applying one module ends. -/
inductive ModuleEnd where
  | applied (handles : List HookHandle) (diagnostics : List Diagnostic)
  | dropped (why : ModuleFailure)
  | unwound (message : Option String)
  deriving DecidableEq, Repr

/-- Applies one module; if it is dropped, its layers are removed again. -/
def applyModule (source : Source ν σ) (app : AppDescriptor) (m : ModuleInfo) (s : σ)
    (p : Host ν) : Ran ν (ModuleEnd × σ) :=
  if m.entryPoints.isEmpty then some ((.dropped .noEntryPoints, s), p)
  else
    let ctx : HookContext := { moduleId := m.moduleId, priority := m.priority, app }
    (runEntries ctx source m.entryPoints {} s p).map fun
      | (((.completed, r), s), p) => ((.applied r.installed r.diagnostics, s), p)
      | (((.failed why, r), s), p) => ((.dropped why, s), (p.removeAll r.installed).2)
      | (((.unwound message, _), s), p) => ((.unwound message, s), p)

/-! ## All modules -/

/-- How applying a list of modules ends. -/
inductive ApplyEnd where
  | report (r : ApplyReport)
  /-- The application runs already; its start has been missed. -/
  | tooLate
  /-- The code that loads a module panicked. -/
  | unwound (message : Option String)
  deriving DecidableEq, Repr, Inhabited

/-- Applies modules in the order given, passing over those applied before. -/
def applyEach (source : Source ν σ) : List ModuleInfo → ProcessSession → ApplyReport → σ →
    Host ν → Ran ν ((ApplyEnd × ProcessSession) × σ)
  | [], session, r, s, p => some (((.report r, session), s), p)
  | m :: ms, session, r, s, p =>
    if session.isApplied m.moduleId then applyEach source ms session r s p
    else
      (applyModule source session.app m s p).bind fun
        | ((.applied handles diagnostics, s), p) =>
          applyEach source ms
            (session.pushApplied { moduleId := m.moduleId, priority := m.priority, handles })
            { r with
              applied := r.applied ++ [m.moduleId]
              diagnostics := r.diagnostics ++ diagnostics.map ({ moduleId := m.moduleId, diagnostic := · }) }
            s p
        | ((.dropped why, s), p) =>
          applyEach source ms (session.pushFailed m.moduleId)
            { r with failed := r.failed ++
                [{ moduleId := m.moduleId, diagnostic := Diagnostic.of .moduleLoadFailure why.detail }] }
            s p
        | ((.unwound message, s), p) => some (((.unwound message, session), s), p)

/-- Brings modules into the process, unless its application runs already. -/
def applyFrom (source : Source ν σ) (modules : List ModuleInfo) (session : ProcessSession) (s : σ)
    (p : Host ν) : Ran ν ((ApplyEnd × ProcessSession) × σ) :=
  if p.appEntered then some (((.tooLate, session), s), p)
  else applyEach source (ModuleInfo.inOrder modules) session {} s p

/-- The same with a loader, which has nothing to remember. -/
def apply (loader : Loader ν) (modules : List ModuleInfo) (session : ProcessSession)
    (p : Host ν) : Ran ν (ApplyEnd × ProcessSession) :=
  (applyFrom loader.source modules session () p).map fun a => (a.1.1, a.2)

end Host

end Interpose
