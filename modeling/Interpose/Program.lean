/-
Interpose.Program — the code that runs inside a process.

Method bodies, class initialisers, hooks and the init callbacks of modules
are all code nobody can look into. A program is such code seen from
outside: a tree whose nodes are the requests it makes of the process and
whose branches are the answers it may get. Every behaviour that asks
finitely often on each branch is a program, so a statement about all
programs is a statement about all modules.

What a program may ask depends on its role. A layer of a hook chain can
hand its call on to the layer below, once: after that it goes on as plain
code, which has no such request. That no layer delegates twice is thus a
property of the type.
-/
import Interpose.Value
import Interpose.Hook.Error

namespace Interpose

/-! ## What a program can see -/

/-- What is known of one installed layer. -/
structure LayerInfo where
  handle : HookHandle
  method : MethodId
  moduleId : String
  priority : Int32
  /-- Counts installs; decides between equal priorities, earlier first. The count
  is taken to be without end, as that of handles is. -/
  order : Nat
  deriving DecidableEq, Repr, Inhabited

/-- What one layer sees of the call that reached it. -/
structure ChainView where
  method : MethodId
  call : Call
  /-- The module the layer belongs to. -/
  moduleId : String
  /-- How many layers are below; with none, handing on reaches the method itself. -/
  depthBelow : Nat
  deriving Repr, Inhabited

/-- The whole process as its code can see it: everything but the code. -/
structure HostView where
  declarations : Declarations
  /-- The execution form of each method whose form can be told. -/
  forms : List (MethodId × ExecForm)
  /-- The methods whose dispatch entry can be told. -/
  entries : List MethodId
  /-- The classes whose initialiser has succeeded. -/
  initialized : List String
  deoptCount : Nat
  appEntered : Bool
  /-- The hooked methods, each with its layers, outermost first. -/
  chains : List (MethodId × List LayerInfo)
  /-- The live handles. -/
  handles : List (HookHandle × MethodId)
  /-- Every handle an install has answered, live or not. -/
  granted : List HookHandle
  deriving Repr, Inhabited

/-! ## What a program can ask -/

/-- Requests that carry no code and whose answer is plain data. -/
inductive Query where
  | remove (h : HookHandle)
  | removeModule (moduleId : String)
  | setForm (m : MethodId) (form : ExecForm)
  | deoptimize (m : MethodId)
  | enterApp
  /-- Adds one to a counter of the program's own, and answers the new count. -/
  | count (counter : Nat)
  | look
  deriving DecidableEq, Repr

abbrev Query.Answer : Query → Type
  | remove _ => Except HookError Unit
  | removeModule _ => Nat
  | setForm _ _ => Unit
  | deoptimize _ => Except RuntimeError Unit
  | enterApp => Unit
  | count _ => Nat
  | look => HostView

/-- Plain code, or a layer that still holds its place in a chain. -/
inductive Role where
  | plain
  | layer
  deriving DecidableEq, Repr

/-- A program in a role. Programs leave notes of type `ν` as they run. -/
inductive Program (ν : Type) : Role → Type
  | finish {ρ : Role} (r : Outcome) : Program ν ρ
  | note {ρ : Role} (n : ν) (k : Program ν ρ) : Program ν ρ
  | ask {ρ : Role} (q : Query) (k : q.Answer → Program ν ρ) : Program ν ρ
  /-- Installs a hook that expects `expects`, if it minds, and runs as `run`. -/
  | install {ρ : Role} (m : MethodId) (expects : Option (List String))
      (run : ChainView → Program ν .layer) (priority : Int32) (moduleId : String)
      (k : Except HookError HookHandle → Program ν ρ) : Program ν ρ
  /-- Points a method's dispatch entry at other code. -/
  | redirect {ρ : Role} (m : MethodId) (body : Call → Program ν .plain)
      (k : Except RuntimeError Unit → Program ν ρ) : Program ν ρ
  /-- Runs the initialiser of a class, if it has not succeeded yet. -/
  | initClass {ρ : Role} (className : String)
      (k : Except Throwable Unit → Program ν ρ) : Program ν ρ
  | invoke {ρ : Role} (m : MethodId) (c : Call) (k : Outcome → Program ν ρ) : Program ν ρ
  /-- Calls the method below every layer, by the handle of one of them. -/
  | callBase {ρ : Role} (h : HookHandle) (c : Call) (k : Outcome → Program ν ρ) : Program ν ρ
  /-- Hands the call on with these arguments; what follows is plain code. -/
  | proceed (args : List Value) (k : Outcome → Program ν .plain) : Program ν .layer

/-- A hook: the parameters it was written for, if it minds, and its code. -/
structure Hook (ν : Type) where
  expects : Option (List String) := none
  run : ChainView → Program ν .layer

/-- The body of a method. -/
abbrev Body (ν : Type) := Call → Program ν .plain

/-! ## Calls by name -/

/-- How a name and a number of arguments select among the overloads. -/
def Declarations.callable (ds : Declarations) (className name : String) (arity : Nat) :
    Except Throwable MethodId :=
  let text := className ++ "#" ++ name ++ "/" ++ toString arity
  match (ds.named className name).filter fun m => m.params.length == arity with
  | [m] => .ok m.id
  | [] => .error { className := "NoSuchMethodError", message := text }
  | _ => .error { className := "AmbiguousMethodError", message := text }

/-- Calls the one overload that takes as many parameters as are given. -/
def Program.invokeNamed {ν : Type} {ρ : Role} (className name : String) (c : Call)
    (k : Outcome → Program ν ρ) : Program ν ρ :=
  .ask .look fun seen =>
    match seen.declarations.callable className name c.args.length with
    | .ok m => .invoke m c k
    | .error t => k (.error t)

end Interpose
