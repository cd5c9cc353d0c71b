/-
Interpose.Script.Request — behaviours described by data.

A script describes the code of a process, that is method bodies, class
initialisers, hooks and init callbacks, by a few stock actions, so that a
whole scenario can be written down as data. Each description stands for a
program, and a scripted process runs like any other.

A hook may make requests of its own before it acts. They are the same
requests that can be made from outside, so hooks and requests are
described together.
-/
import Interpose.Host.Run

namespace Interpose.Script

/-! ## Descriptions -/

/-- What a scripted hook does with the call once it has it. -/
inductive HookAct where
  | answer (v : Value)
  | throw (t : Throwable)
  /-- Hands on, and answers this text with the result's text after it. -/
  | tag (s : String)
  /-- Hands on, and adds to a whole number. -/
  | add (n : Int64)
  /-- Hands on with these arguments. -/
  | handOn (args : List Value)
  /-- Hands on with this added to each whole number among the arguments. -/
  | addToArgs (n : Int64)
  /-- Hands on, and answers this in place of an exception. -/
  | rescue (v : Value)
  /-- Answers what it sees of the call. -/
  | describe
  | handOnAsIs
  deriving Repr, Inhabited

mutual

inductive HookScript where
  | mk (act : HookAct) (quiet : Bool) (label : String) (expects : Option (List String))
      (first : List Request)

/-- What can be asked of a process, from outside or by a hook. -/
inductive Request where
  | install (m : MethodId) (h : HookScript) (priority : Int32) (moduleId : String)
  | remove (h : HookHandle)
  | removeModule (moduleId : String)
  | callBase (h : HookHandle) (c : Call)
  | layers (m : MethodId)
  | table
  | isHooked (m : MethodId)
  | methodOf (h : HookHandle)
  | invoke (m : MethodId) (c : Call)
  | invokeNamed (className name : String) (c : Call)
  /-- Calls a method so many times. -/
  | repeated (m : MethodId) (times : Nat) (args : List Value)
  | setForm (m : MethodId) (form : ExecForm)
  | form (m : MethodId)
  | deoptimize (m : MethodId)
  /-- Points a method at a body that answers a value. -/
  | redirect (m : MethodId) (v : Value)
  | enterApp
  | initClass (className : String)
  | classInfo (className name : String)
  | info (m : MethodId)
  | resolve (descriptor : String)
  | resolveAll (className name : String)
  /-- A request nobody knows. -/
  | unknown

end

instance : Inhabited HookScript := ⟨.mk .handOnAsIs false "" none []⟩
instance : Inhabited Request := ⟨.unknown⟩

/-! ## Answers and notes -/

inductive Answer where
  /-- The handle was never answered by any install. -/
  | noSuchHandle
  | handle (h : HookHandle)
  | hookError (e : HookError)
  | runtimeError (e : RuntimeError)
  | resolveError (e : ResolveError)
  | thrown (t : Throwable)
  | done
  | removed (n : Nat)
  | outcome (r : Outcome)
  | layers (ls : List LayerInfo)
  | table (hooked : List MethodId) (layers : Nat)
  | hooked (b : Bool)
  | methodOf (m : Option MethodId) (hasBase : Bool)
  | calls (n : Nat) (distinct : List Outcome)
  | form (f : Option ExecForm)
  | formInfo (f : Option ExecForm) (deopts : Nat)
  | deopts (n : Nat)
  | entered (b : Bool)
  | initialized (b : Bool)
  | classInfo (known initialized : Bool) (methods : List MethodInfo)
  | info (m : Option MethodInfo) (entry : Bool)
  | method (m : MethodId)
  | methods (ms : List MethodId)
  | nothing
  deriving Repr

/-- What a scripted process leaves behind as it runs. -/
inductive Note where
  | line (s : String)
  /-- The answer to a request a hook made before it acted. -/
  | before (a : Answer)
  /-- What a call below all layers came to; nothing if there was no layer. -/
  | base (r : Option Outcome)
  /-- The answer to the request that was made from outside. -/
  | answer (a : Answer)
  deriving Repr

/-! ## Programs of hooks and requests -/

/-- The line a hook leaves when a call reaches it. -/
def hookLine (label : String) (seen : ChainView) : String :=
  "hook " ++ label ++ " " ++ seen.moduleId ++ " below=" ++ toString seen.depthBelow
    ++ " (" ++ Value.textAll seen.call.args ++ ")"

/-- Adds to a whole number and leaves every other value alone. -/
def addTo (n : Int64) : Value → Value
  | .int i => .int (i + n)
  | v => v

def HookAct.program (seen : ChainView) : HookAct → Program Note .layer
  | .answer v => .finish (.ok v)
  | .throw t => .finish (.error t)
  | .tag s => .proceed seen.call.args fun r => .finish (r.map fun v => .str (s ++ v.text))
  | .add n => .proceed seen.call.args fun r => .finish (r.map (addTo n))
  | .handOn args => .proceed args .finish
  | .addToArgs n => .proceed (seen.call.args.map (addTo n)) .finish
  | .rescue v => .proceed seen.call.args fun r => .finish (.ok (r.toOption.getD v))
  | .describe => .finish (.ok (.str (seen.moduleId ++ "|" ++ toString seen.depthBelow ++ "|"
      ++ seen.method.text ++ "|" ++ seen.call.this.elim "-" (·.text) ++ "|"
      ++ Value.textAll seen.call.args)))
  | .handOnAsIs => .proceed seen.call.args .finish

/-- Makes a request only if the handle was answered by some install. -/
def ifGranted {ρ : Role} (h : HookHandle) (k : Answer → Program Note ρ) (p : Program Note ρ) :
    Program Note ρ :=
  .ask .look fun seen => if seen.granted.contains h then p else k .noSuchHandle

/-- Calls a method so many times and keeps the distinct outcomes. -/
def repeatCalls {ρ : Role} (m : MethodId) (c : Call) :
    Nat → List Outcome → (List Outcome → Program Note ρ) → Program Note ρ
  | 0, seen, k => k seen
  | n + 1, seen, k => .invoke m c fun r =>
    repeatCalls m c n (if seen.contains r then seen else seen ++ [r]) k

def sortIds (ms : List MethodId) : List MethodId := ms.mergeSort fun a b => a.raw ≤ b.raw

mutual

/-- The code of a scripted hook. -/
def HookScript.run : HookScript → ChainView → Program Note .layer
  | .mk act quiet label _ first, seen =>
    let rest := runFirst first (act.program seen)
    if quiet then rest else .note (.line (hookLine label seen)) rest

/-- Makes requests one after the other, leaving each answer, and goes on. -/
def runFirst : List Request → Program Note .layer → Program Note .layer
  | [], k => k
  | q :: qs, k => q.program fun a => .note (.before a) (runFirst qs k)

/-- A request as a program that goes on with the answer. -/
def Request.program {ρ : Role} : Request → (Answer → Program Note ρ) → Program Note ρ
  | .install m (.mk act quiet label expects first) priority moduleId, k =>
    .install m expects
      (fun seen =>
        let rest := runFirst first (act.program seen)
        if quiet then rest else .note (.line (hookLine label seen)) rest)
      priority moduleId fun
      | .ok h => k (.handle h)
      | .error e => k (.hookError e)
  | .remove h, k => ifGranted h k <| .ask (.remove h) fun
    | .ok () => k .done
    | .error e => k (.hookError e)
  | .removeModule id, k => .ask (.removeModule id) fun n => k (.removed n)
  | .callBase h c, k => ifGranted h k <| .callBase h c fun r => k (.outcome r)
  | .layers m, k => .ask .look fun seen => k (.layers ((seen.chains.lookup m).getD []))
  | .table, k => .ask .look fun seen =>
    k (.table (sortIds (seen.chains.map (·.1))) seen.handles.length)
  | .isHooked m, k => .ask .look fun seen => k (.hooked (seen.chains.lookup m).isSome)
  | .methodOf h, k => ifGranted h k <| .ask .look fun seen =>
    let m := seen.handles.lookup h
    k (.methodOf m (m.any fun m => (seen.chains.lookup m).isSome))
  | .invoke m c, k => .invoke m c fun r => k (.outcome r)
  | .invokeNamed cls name c, k => Program.invokeNamed cls name c fun r => k (.outcome r)
  | .repeated m times args, k => repeatCalls m { args } times [] fun rs => k (.calls times rs)
  | .setForm m form, k => .ask (.setForm m form) fun () => .ask .look fun seen =>
    k (.form (seen.forms.lookup m))
  | .form m, k => .ask .look fun seen => k (.formInfo (seen.forms.lookup m) seen.deoptCount)
  | .deoptimize m, k => .ask (.deoptimize m) fun
    | .ok () => .ask .look fun seen => k (.deopts seen.deoptCount)
    | .error e => k (.runtimeError e)
  | .redirect m v, k => .redirect m (fun _ => .finish (.ok v)) fun
    | .ok () => k .done
    | .error e => k (.runtimeError e)
  | .enterApp, k => .ask .enterApp fun () => .ask .look fun seen => k (.entered seen.appEntered)
  | .initClass cls, k => .initClass cls fun
    | .ok () => .ask .look fun seen => k (.initialized (seen.initialized.contains cls))
    | .error t => k (.thrown t)
  | .classInfo cls name, k => .ask .look fun seen =>
    k (.classInfo (seen.declarations.classExists cls) (seen.initialized.contains cls)
      (seen.declarations.named cls name))
  | .info m, k => .ask .look fun seen =>
    k (.info (seen.declarations.info? m) (seen.entries.contains m))
  | .resolve d, k => .ask .look fun seen =>
    match seen.declarations.resolveText d with
    | .ok m => k (.method m)
    | .error e => k (.resolveError e)
  | .resolveAll cls name, k => .ask .look fun seen =>
    match seen.declarations.resolveAll cls name with
    | .ok ms => k (.methods ms)
    | .error e => k (.resolveError e)
  | .unknown, k => k .nothing

end

/-- The hook a script describes. -/
def HookScript.hook : HookScript → Hook Note
  | .mk act quiet label expects first =>
    { expects, run := (HookScript.mk act quiet label expects first).run }

/-! ## Requests from outside -/

/-- Splits what a process left behind into the trace and the last answer. -/
def takeAnswer (notes : List Note) : List Note × Answer :=
  match notes with
  | .answer a :: earlier => (earlier.reverse, a)
  | other => (other.reverse, .nothing)

/-- Makes a request of a process: the answer, the trace it left, and the
process after it. -/
def Request.perform (q : Request) (p : Host Note) : Host.Ran Note (Answer × List Note) :=
  (p.run (q.program fun a => .note (.answer a) (.finish (.ok .void)))).map fun (_, p) =>
    let (trace, a) := takeAnswer p.notes
    ((a, trace), { p with notes := [] })

end Interpose.Script
