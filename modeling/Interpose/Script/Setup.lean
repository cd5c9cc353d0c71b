/-
Interpose.Script.Setup — the described parts a process is built from:
method bodies, class initialisers, and the init callbacks of modules.
-/
import Interpose.Script.Request
import Interpose.Apply.Loader

namespace Interpose.Script

/-! ## Method bodies -/

inductive BodyAct where
  /-- The sum of the whole numbers among the arguments. -/
  | sum
  /-- The receiver. -/
  | receiver
  /-- How often this body has run. -/
  | count
  | arg (i : Nat)
  /-- A text with the arguments' text after it. -/
  | concat (s : String)
  | throw (t : Throwable)
  /-- What another method answers to the same call. -/
  | call (className name : String)
  | answer (v : Value)
  deriving Repr, Inhabited

structure BodyScript where
  name : String
  quiet : Bool := false
  act : BodyAct := .answer .void
  deriving Repr, Inhabited

/-- The sum of the whole numbers in a list, in words of 64 bits. -/
def sumInts (vs : List Value) : Int64 :=
  vs.foldl (fun acc v => match v with | .int n => acc + n | _ => acc) 0

def BodyAct.program (act : BodyAct) (counter : Nat) (c : Call) : Program Note .plain :=
  match act with
  | .sum => .finish (.ok (.int (sumInts c.args)))
  | .receiver => .finish (.ok (c.this.getD .void))
  | .count => .ask (.count counter) fun n => .finish (.ok (.int (Int64.ofNat n)))
  | .arg i => .finish (.ok (c.args[i]?.getD .null))
  | .concat s => .finish (.ok (.str (s ++ Value.textAll c.args)))
  | .throw t => .finish (.error t)
  | .call cls name => Program.invokeNamed cls name c .finish
  | .answer v => .finish (.ok v)

/-- The line a body leaves when it runs. -/
def bodyLine (name : String) (c : Call) : String :=
  "body " ++ c.this.elim "" (fun v => v.text ++ ".") ++ name ++ "(" ++ Value.textAll c.args ++ ")"

/-- The body a script describes; its runs are counted under the given number. -/
def BodyScript.body (b : BodyScript) (counter : Nat) : Body Note := fun c =>
  if b.quiet then b.act.program counter c
  else .note (.line (bodyLine b.name c)) (b.act.program counter c)

/-! ## Class initialisers -/

structure ClassInitScript where
  className : String
  /-- The calls it makes, without a receiver. -/
  calls : List (String × String × List Value) := []
  /-- How many of the runs that get to the end fail there. -/
  failures : Nat := 0
  error : Throwable := { className := "", message := "" }
  deriving Repr, Inhabited

/-- Makes the calls one after the other; an exception ends it. -/
def ClassInitScript.runCalls (className : String) (k : Program Note .plain) :
    List (String × String × List Value) → Program Note .plain
  | [] => k
  | (cls, name, args) :: rest => Program.invokeNamed cls name { args } fun
    | .ok v => .note (.line ("clinit " ++ className ++ " got " ++ v.text))
        (runCalls className k rest)
    | .error t => .finish (.error t)

def ClassInitScript.program (s : ClassInitScript) (counter : Nat) : Program Note .plain :=
  .note (.line ("clinit " ++ s.className)) <|
    runCalls s.className
      (.ask (.count counter) fun n =>
        .finish (if n ≤ s.failures then .error s.error else .ok .void))
      s.calls

/-! ## Init callbacks -/

inductive InitStep where
  /-- Requests hooks; unless `must` is false a refusal fails the callback. -/
  | hook (descriptor : String) (h : HookScript) (must : Bool)
  | hookMethod (m : MethodId) (h : HookScript) (must : Bool)
  | hookAll (className name : String) (h : HookScript) (must : Bool)
  | resolve (descriptor : String)
  /-- Calls what is below the last hook of this callback. -/
  | callBase (args : List Value)
  | describe
  | fail (chain : List String)
  | panic (message : Option String)

/-- The line for handles that were granted. -/
def installedLine (hs : List HookHandle) : String :=
  "installed [" ++ ",".intercalate (hs.map fun h => toString h.raw) ++ "]"

/-- Goes on after a request for hooks. -/
def afterHooks (must : Bool) (k : Init Note) : Except InstallError (List HookHandle) → Init Note
  | .ok hs => .note (.line (installedLine hs)) k
  | .error e => .note (.line ("refused " ++ e.message)) <|
      if must then .finish (.failed [e.message]) else k

/-- One step, and what comes after it. -/
def InitStep.program (k : Init Note) : InitStep → Init Note
  | hook d h must => .hook d h.hook fun r => afterHooks must k (r.map ([·]))
  | hookMethod m h must => .hookMethod m h.hook fun r => afterHooks must k (r.map ([·]))
  | hookAll cls name h must => .hookAll cls name h.hook (afterHooks must k)
  | resolve d => .resolve d fun
    | .ok m => .look fun _ _ ds =>
      .note (.line ("resolved " ++ m.text ++ " " ++ (ds.info? m).elim "" (·.descriptor))) k
    | .error e => .note (.line ("resolve failed: " ++ e.message)) k
  | callBase args => .look fun _ r _ =>
    match r.installed.getLast? with
    | none => .note (.base none) k
    | some h => .callBase h { args } fun out => .note (.base (some out)) k
  | describe => .look fun ctx r _ =>
    .note (.line ("init " ++ ctx.moduleId ++ " priority=" ++ toString ctx.priority.toInt
      ++ " app=" ++ ctx.app.appId ++ " installed=" ++ toString r.installed.length
      ++ " diagnostics=" ++ toString r.diagnostics.length)) k
  | fail chain => .finish (.failed chain)
  | panic message => .finish (.panicked message)

/-- The callback made of some steps; it completes after the last one. -/
def initOf : List InitStep → Init Note
  | [] => .finish .completed
  | s :: rest => s.program (initOf rest)

/-! ## A library for trying native entry points -/

/-- A hook that answers `N:` and the result's text, if the result is text. -/
def nativeHook : Hook Note where
  run seen := .proceed seen.call.args fun r =>
    .finish (r.map fun v => .str ("N:" ++ match v with | .str s => s | _ => ""))

/-- A callback that installs that hook on a greeting and then goes on. -/
def nativeInit (k : Init Note) : Init Note :=
  .hook "app.Main#greet(java.lang.String)" nativeHook fun
    | .ok _ => k
    | .error e => .finish (.failed [e.message])

/-- A library of two constructors: the second one's callback fails at its end. -/
def sampleLibrary : List (String × Loaded Note) :=
  [(Defaults.entrySymbol, .ready (nativeInit (.finish .completed))),
   ("second_entry", .ready (nativeInit (.finish (.failed ["native refused"]))))]

end Interpose.Script
