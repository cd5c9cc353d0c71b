/-
Interpose.Host.Run — running the code of a process.

`exec` follows a program request by request; `enter` runs a dispatch
entry; `descend` walks a hook chain. A program cannot run for ever by
itself, but calls can nest for ever, so `enter` is given the number of
calls that may still be nested, and there is no result when they run out.
The results there are do not depend on that number.
-/
import Interpose.Host.Hooks

namespace Interpose.Host

variable {ν : Type}

/-- What running comes to: an outcome and the process after it, or nothing
when calls were nested too deep. -/
abbrev Ran (ν : Type) (α : Type) := Option (α × Host ν)

/-- The way down from where a program stands: none for plain code; for a
layer, the rest of its chain, to be given the arguments. -/
def Below (ν : Type) : Role → Type
  | .plain => Unit
  | .layer => List Value → Host ν → Ran ν Outcome

/-- How dispatch entries are run. -/
abbrev Enter (ν : Type) := Entry ν → Call → Host ν → Ran ν Outcome

/-! ## Classes and calls -/

/-- Makes sure that a class is initialised. While its initialiser runs the
class counts as initialised; if it throws, the class is as it was before,
and the next call tries again. -/
def ensureInit (enter : Enter ν) (className : String) (p : Host ν) :
    Ran ν (Except Throwable Unit) :=
  if (p.initState.lookup className).isSome then some (.ok (), p)
  else
    let p := p.setInit className (some .running)
    match p.classInits.lookup className with
    | none => some (.ok (), p.setInit className (some .done))
    | some init =>
      (enter (.body fun _ => init) {} p).map fun
        | (.ok _, p) => (.ok (), p.setInit className (some .done))
        | (.error t, p) => (.error t, p.setInit className none)

/-- Calls a method: first its class is initialised, then its entry, as it is
by then, is run. -/
def invokeWith (enter : Enter ν) (m : MethodId) (c : Call) (p : Host ν) : Ran ν Outcome :=
  match p.info? m with
  | none => some (.error { className := "NoSuchMethodError", message := m.text }, p)
  | some info =>
    (ensureInit enter info.className p).bind fun
      | (.error t, p) => some (.error t, p)
      | (.ok (), p) =>
        match p.method? m with
        | none => some (.error { className := "NoSuchMethodError", message := m.text }, p)
        | some x => enter x.entry c p

/-- Calls what a live handle's method did before it was hooked. Its class is
not initialised for this. -/
def callBaseWith (enter : Enter ν) (h : HookHandle) (c : Call) (p : Host ν) : Ran ν Outcome :=
  match p.base? h with
  | some base => enter base c p
  | none => some (.error {
      className := "IllegalStateException"
      message := (HookError.unknownHandle h).message }, p)

/-! ## Programs -/

/-- Runs a program to its end. -/
def exec (enter : Enter ν) :
    {ρ : Role} → Program ν ρ → Below ν ρ → Host ν → Ran ν Outcome
  | _, .finish r, _, p => some (r, p)
  | _, .note n k, below, p => exec enter k below (p.addNote n)
  | _, .ask q k, below, p =>
    let a := p.answer q
    exec enter (k a.1) below a.2
  | _, .install m expects run priority moduleId k, below, p =>
    let a := p.install m { expects, run } priority moduleId
    exec enter (k a.1) below a.2
  | _, .redirect m body k, below, p =>
    match p.redirect m (.body body) with
    | .error e => exec enter (k (.error e)) below p
    | .ok p => exec enter (k (.ok ())) below p
  | _, .initClass className k, below, p =>
    (ensureInit enter className p).bind fun a => exec enter (k a.1) below a.2
  | _, .invoke m c k, below, p =>
    (invokeWith enter m c p).bind fun a => exec enter (k a.1) below a.2
  | _, .callBase h c k, below, p =>
    (callBaseWith enter h c p).bind fun a => exec enter (k a.1) below a.2
  | _, .proceed args k, below, p =>
    (below args p).bind fun a => exec enter (k a.1) () a.2

/-- Walks a chain: each layer is given the rest of the chain as its way
down, and the last one the entry below all of them. -/
def descend (enter : Enter ν) (m : MethodId) (base : Entry ν) (this : Option Value) :
    List (Layer ν) → List Value → Host ν → Ran ν Outcome
  | [], args, p => enter base { this, args } p
  | l :: rest, args, p =>
    exec enter
      (l.hook.run {
        method := m, call := { this, args }, moduleId := l.moduleId, depthBelow := rest.length })
      (descend enter m base this rest) p

/-- Runs a dispatch entry, with at most this many calls nested in it. A
dispatcher reads its slot once, when the call comes. -/
def enter : Nat → Enter ν
  | 0, _, _, _ => none
  | depth + 1, .body b, c, p => exec (enter depth) (b c) () p
  | depth + 1, .dispatcher s, c, p =>
    match p.slots[s]? with
    | some slot => descend (enter depth) slot.method slot.base c.this slot.layers c.args p
    | none => none

/-! ## From outside -/

/-- How deep calls may be nested in a process before it breaks down. -/
def callDepth : Nat := 2000

def invoke (p : Host ν) (m : MethodId) (c : Call) : Ran ν Outcome :=
  invokeWith (enter callDepth) m c p

def callBase (p : Host ν) (h : HookHandle) (c : Call) : Ran ν Outcome :=
  callBaseWith (enter callDepth) h c p

/-- Runs a piece of plain code in the process. -/
def run (p : Host ν) (code : Program ν .plain) : Ran ν Outcome :=
  exec (enter callDepth) code () p

end Interpose.Host
