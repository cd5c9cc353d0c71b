/-
Interpose.Hook.Error — why a hook cannot be put in or taken out.

Three layers of cause: what the runtime refuses (`Refusal`,
`RuntimeError`), what keeps a method from being hooked (`Obstacle`), and
what the hook table answers (`HookError`). The wording is in the three
`message` functions and nowhere else.
-/
import Interpose.Method.Resolve

namespace Interpose

/-- The number of one installed layer. It is never given twice: the counter it
is drawn from, a word of 64 bits that wraps, is taken to be without end, as no
process lives to install 2 ^ 64 layers. -/
structure HookHandle where
  raw : Nat
  deriving DecidableEq, Repr, Inhabited

def HookHandle.text (h : HookHandle) : String := "hook#" ++ toString h.raw

/-! ## The runtime's refusals -/

inductive RuntimeError where
  | unknownMethod (m : MethodId)
  | deoptUnsupported (m : MethodId)
  | rejected (reason : String)
  deriving DecidableEq, Repr

def RuntimeError.message : RuntimeError → String
  | unknownMethod m => "unknown method " ++ m.text
  | deoptUnsupported m => "method " ++ m.text ++ " cannot be de-optimized"
  | rejected reason => "runtime refused: " ++ reason

/-- How a runtime may refuse an operation on some method. -/
inductive Refusal where
  | unknown
  | unsupported
  | rejected (reason : String)
  deriving DecidableEq, Repr

/-- The error a refusal gives for a method. -/
def Refusal.error (m : MethodId) : Refusal → RuntimeError
  | unknown => .unknownMethod m
  | unsupported => .deoptUnsupported m
  | rejected reason => .rejected reason

/-! ## Obstacles -/

/-- Why a method that exists and fits cannot be redirected. -/
inductive Obstacle where
  /-- Its form can never be left. -/
  | fixedForm (form : ExecForm)
  /-- The runtime has no way to leave this form. -/
  | deoptUnsupported (form : ExecForm)
  /-- The runtime would not leave the form, for another reason. -/
  | deoptRefused (e : RuntimeError)
  /-- The runtime said that it left the form, and is still in this one. -/
  | stillIn (form : Option ExecForm)
  /-- The runtime would not take the new entry. -/
  | redirectRefused (e : RuntimeError)
  deriving DecidableEq, Repr

def Obstacle.message : Obstacle → String
  | fixedForm f => f.name ++ " code cannot be de-optimized"
  | deoptUnsupported f => "de-optimization unsupported for " ++ f.name ++ " code"
  | deoptRefused e => e.message
  | stillIn f => "still " ++ f.elim "None" (fun f => "Some(" ++ f.name ++ ")") ++ " after de-optimization"
  | redirectRefused (.rejected reason) => reason
  | redirectRefused e => e.message

/-! ## The table's answers -/

inductive HookError where
  /-- The runtime has frozen the method's dispatch. -/
  | frozen (method : String)
  /-- There is no body to intercept. -/
  | abstractMethod (method : String)
  /-- The hook was written for other parameters. -/
  | wrongParams (method : String) (expected taken : List String)
  | unresolvable (target : String)
  | notHookable (method : String) (why : Obstacle)
  | unknownHandle (h : HookHandle)
  | restoreFailed (method : MethodId) (why : RuntimeError)
  deriving DecidableEq, Repr

namespace HookError

def incompatible (method reason : String) : String :=
  "incompatible signature for " ++ method ++ ": " ++ reason

def message : HookError → String
  | frozen m => m ++ " is final: the runtime has frozen its dispatch"
  | abstractMethod m => incompatible m "abstract methods have no body to intercept"
  | wrongParams m expected taken =>
    incompatible m ("hook expects " ++ paramText expected ++ ", method takes " ++ paramText taken)
  | unresolvable target => "cannot resolve target " ++ target
  | notHookable m why => m ++ " is not hookable: " ++ why.message
  | unknownHandle h => "unknown hook handle " ++ h.text
  | restoreFailed m why => "cannot restore the original entry of " ++ m.text ++ ": " ++ why.message

end HookError

/-- Why a module's request for a hook came to nothing. -/
inductive InstallError where
  | resolve (e : ResolveError)
  | hook (e : HookError)
  deriving DecidableEq, Repr

def InstallError.message : InstallError → String
  | resolve e => e.message
  | hook e => e.message

end Interpose
