/-
Interpose.Apply.Init — the init callback of a module.

The callback is code like any other, but it may ask for less than the code
in `Interpose.Program`: it can look methods up, install hooks in its own
module's name and call what lies below them, and nothing else. Whatever it
installs and whatever is refused to it is recorded, so that a callback
that fails can be undone and one that succeeds can be told about.
-/
import Interpose.Host.Run
import Interpose.Diagnostic
import Interpose.App

namespace Interpose

/-! ## Callbacks -/

/-- How a callback ends. -/
inductive InitEnd where
  | completed
  /-- It gave an error: outermost context first, cause last. -/
  | failed (chain : List String)
  /-- It panicked; the payload may be no text. -/
  | panicked (message : Option String)
  deriving DecidableEq, Repr, Inhabited

/-- What has been recorded of a callback so far. -/
structure InitRecord where
  /-- The layers it installed, in order. -/
  installed : List HookHandle := []
  /-- One diagnostic for each request that was refused, in order. -/
  diagnostics : List Diagnostic := []
  deriving DecidableEq, Repr, Inhabited

/-- Whom a callback works for. -/
structure HookContext where
  moduleId : String
  priority : Int32
  app : AppDescriptor
  deriving Repr, Inhabited

/-- A callback in progress: a tree of requests and answers. -/
inductive Init (ν : Type)
  | finish (e : InitEnd) : Init ν
  | note (n : ν) (k : Init ν) : Init ν
  /-- Resolves without installing; a failure is not recorded. -/
  | resolve (descriptor : String) (k : Except ResolveError MethodId → Init ν) : Init ν
  | hook (descriptor : String) (h : Hook ν) (k : Except InstallError HookHandle → Init ν) : Init ν
  | hookMethod (m : MethodId) (h : Hook ν) (k : Except InstallError HookHandle → Init ν) : Init ν
  /-- Hooks every overload of a name with the same hook. -/
  | hookAll (className name : String) (h : Hook ν)
      (k : Except InstallError (List HookHandle) → Init ν) : Init ν
  | callBase (h : HookHandle) (c : Call) (k : Outcome → Init ν) : Init ν
  | look (k : HookContext → InitRecord → Declarations → Init ν) : Init ν

/-! ## Requests -/

namespace HookContext

variable {ν : Type}

/-- Records a refusal under the label of what was asked for. -/
def refuse (r : InitRecord) (label : String) (e : InstallError) : InitRecord :=
  { r with diagnostics := r.diagnostics ++ [Diagnostic.of .hookInstallFailure e.message label] }

/-- Installs for the module, at the module's priority. -/
def installOn (ctx : HookContext) (m : MethodId) (label : String) (h : Hook ν) (r : InitRecord)
    (p : Host ν) : Except InstallError HookHandle × InitRecord × Host ν :=
  match p.install m h ctx.priority ctx.moduleId with
  | (.ok hd, p) => (.ok hd, { r with installed := r.installed ++ [hd] }, p)
  | (.error e, p) => (.error (.hook e), refuse r label (.hook e), p)

def hook (ctx : HookContext) (descriptor : String) (h : Hook ν) (r : InitRecord)
    (p : Host ν) : Except InstallError HookHandle × InitRecord × Host ν :=
  match p.declarations.resolveText descriptor with
  | .ok m => ctx.installOn m descriptor h r p
  | .error e => (.error (.resolve e), refuse r descriptor (.resolve e), p)

/-- A method is labelled by its descriptor, or by its number if there is no such method. -/
def methodLabel (m : MethodId) (p : Host ν) : String :=
  (p.info? m).elim m.text (·.descriptor)

def hookMethod (ctx : HookContext) (m : MethodId) (h : Hook ν) (r : InitRecord)
    (p : Host ν) : Except InstallError HookHandle × InitRecord × Host ν :=
  ctx.installOn m (methodLabel m p) h r p

/-- Hooks one method after the other, and keeps the handles and the last error. -/
def hookEach (ctx : HookContext) (h : Hook ν) :
    List MethodId → InitRecord → Host ν →
      (List HookHandle × Option InstallError) × InitRecord × Host ν
  | [], r, p => (([], none), r, p)
  | m :: ms, r, p =>
    match ctx.hookMethod m h r p with
    | (.ok hd, r, p) =>
      let rest := ctx.hookEach h ms r p
      ((hd :: rest.1.1, rest.1.2), rest.2)
    | (.error e, r, p) =>
      let rest := ctx.hookEach h ms r p
      ((rest.1.1, rest.1.2.or (some e)), rest.2)

/-- Overloads that refuse the hook are recorded and passed over; it is an
error, the last one, only when none took it. -/
def hookAll (ctx : HookContext) (className name : String) (h : Hook ν) (r : InitRecord)
    (p : Host ν) : Except InstallError (List HookHandle) × InitRecord × Host ν :=
  match p.declarations.resolveAll className name with
  | .error e => (.error (.resolve e), refuse r (className ++ "#" ++ name) (.resolve e), p)
  | .ok ms =>
    match ctx.hookEach h ms r p with
    | (([], some e), rest) => (.error e, rest)
    | ((hs, _), rest) => (.ok hs, rest)

/-- Runs a callback to its end. -/
def run (ctx : HookContext) (enter : Host.Enter ν) :
    Init ν → InitRecord → Host ν → Host.Ran ν (InitEnd × InitRecord)
  | .finish e, r, p => some ((e, r), p)
  | .note n k, r, p => ctx.run enter k r (p.addNote n)
  | .resolve d k, r, p => ctx.run enter (k (p.declarations.resolveText d)) r p
  | .hook d h k, r, p =>
    let a := ctx.hook d h r p
    ctx.run enter (k a.1) a.2.1 a.2.2
  | .hookMethod m h k, r, p =>
    let a := ctx.hookMethod m h r p
    ctx.run enter (k a.1) a.2.1 a.2.2
  | .hookAll c n h k, r, p =>
    let a := ctx.hookAll c n h r p
    ctx.run enter (k a.1) a.2.1 a.2.2
  | .callBase h c k, r, p =>
    (Host.callBaseWith enter h c p).bind fun a => ctx.run enter (k a.1) r a.2
  | .look k, r, p => ctx.run enter (k ctx r p.declarations) r p

end HookContext

end Interpose
