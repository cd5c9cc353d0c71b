/-
Interpose.Host.State — a process: its methods and its hook table.

A method has a dispatch entry, which is its declared body until it is
hooked and then a dispatcher. A dispatcher holds no chain itself but the
number of a slot; the slot holds what the method did before it was hooked
and the layers that are on it now. So an edit of a chain changes a slot
and no entry, and a call that has read its slot goes on with what it read.
-/
import Interpose.Program

namespace Interpose

/-! ## Methods and slots -/

/-- What runs when a method is called. -/
inductive Entry (ν : Type) where
  | body (b : Body ν)
  | dispatcher (slot : Nat)

structure Method (ν : Type) where
  info : MethodInfo
  form : ExecForm := .interpreted
  entry : Entry ν

/-- An installed layer. -/
structure Layer (ν : Type) extends LayerInfo where
  hook : Hook ν

/-- The layers of one hooked method, outermost first, above the entry that
was in place when it was hooked. -/
structure Slot (ν : Type) where
  method : MethodId
  base : Entry ν
  layers : List (Layer ν) := []

/-- Chains are ordered by priority, highest first, and then by install. -/
def Layer.before {ν : Type} (a b : Layer ν) : Bool :=
  b.priority < a.priority || (a.priority == b.priority && a.order ≤ b.order)

/-! ## The hook table -/

/-- Which methods are hooked, through which slots, and which layers are live. -/
structure HookTable where
  slotOf : List (MethodId × Nat) := []
  live : List (HookHandle × MethodId) := []
  /-- Counts handles and installs alike; an install that fails late has used one up.
  Both counts are words of 64 bits, and are taken to be without end here. -/
  nextHandle : Nat := 1
  /-- Every handle ever answered, in order. -/
  granted : List HookHandle := []
  deriving Repr, Inhabited

namespace HookTable

def slot? (t : HookTable) (m : MethodId) : Option Nat := t.slotOf.lookup m

/-- The method a live handle is on. -/
def methodOf? (t : HookTable) (h : HookHandle) : Option MethodId := t.live.lookup h

/-- The number of live layers. -/
def size (t : HookTable) : Nat := t.live.length

end HookTable

/-! ## The process -/

/-- What the runtime of this process refuses to do with some method. -/
structure Refusals where
  /-- It does not tell the execution form. -/
  form : Bool := false
  /-- It does not tell the dispatch entry. -/
  entry : Bool := false
  /-- It says that it left the form, and does nothing. -/
  stuck : Bool := false
  deopt : Option Refusal := none
  redirect : Option Refusal := none
  restore : Option Refusal := none
  deriving Inhabited

inductive InitState where
  | running
  | done
  deriving DecidableEq, Repr

structure Host (ν : Type) where
  /-- In order of declaration. -/
  methods : List (Method ν) := []
  /-- The initialisers of classes that have one. -/
  classInits : List (String × Program ν .plain) := []
  /-- The classes whose initialiser runs or has succeeded. -/
  initState : List (String × InitState) := []
  appEntered : Bool := false
  deoptCount : Nat := 0
  refusals : MethodId → Refusals := fun _ => {}
  /-- Every slot ever made. -/
  slots : List (Slot ν) := []
  table : HookTable := {}
  counters : List (Nat × Nat) := []
  /-- The notes left so far, newest first. -/
  notes : List ν := []

namespace Host

variable {ν : Type}

instance : Inhabited (Host ν) := ⟨{}⟩

/-! ## Reading -/

def method? (p : Host ν) (m : MethodId) : Option (Method ν) :=
  p.methods.find? (·.info.id == m)

def info? (p : Host ν) (m : MethodId) : Option MethodInfo := (p.method? m).map (·.info)

/-- The execution form, where the runtime tells it. -/
def form? (p : Host ν) (m : MethodId) : Option ExecForm :=
  if (p.refusals m).form then none else (p.method? m).map (·.form)

/-- The dispatch entry, where the runtime tells it. -/
def entry? (p : Host ν) (m : MethodId) : Option (Entry ν) :=
  if (p.refusals m).entry then none else (p.method? m).map (·.entry)

def declarations (p : Host ν) : Declarations where
  methods := p.methods.map (·.info)
  bareClasses := p.classInits.map (·.1)

def slot? (p : Host ν) (m : MethodId) : Option (Slot ν) :=
  (p.table.slot? m).bind fun s => p.slots[s]?

/-- The layers on a method, outermost first. -/
def layers (p : Host ν) (m : MethodId) : List (Layer ν) :=
  (p.slot? m).elim [] (·.layers)

/-- What a live handle's method did before it was hooked. -/
def base? (p : Host ν) (h : HookHandle) : Option (Entry ν) :=
  (p.table.methodOf? h).bind fun m => (p.slot? m).map (·.base)

def view (p : Host ν) : HostView where
  declarations := p.declarations
  forms := p.methods.filterMap fun m => (p.form? m.info.id).map (m.info.id, ·)
  entries := (p.methods.map (·.info.id)).filter fun m => (p.entry? m).isSome
  initialized := p.initState.filterMap fun s => if s.2 = .done then some s.1 else none
  deoptCount := p.deoptCount
  appEntered := p.appEntered
  chains := p.table.slotOf.map fun s => (s.1, (p.layers s.1).map (·.toLayerInfo))
  handles := p.table.live
  granted := p.table.granted

/-! ## Writing -/

/-- Changes the method of this id, if there is one. -/
def modifyMethod (p : Host ν) (m : MethodId) (f : Method ν → Method ν) : Host ν :=
  { p with methods := p.methods.map fun x => if x.info.id = m then f x else x }

def setEntry (p : Host ν) (m : MethodId) (e : Entry ν) : Host ν :=
  p.modifyMethod m fun x => { x with entry := e }

def setForm (p : Host ν) (m : MethodId) (form : ExecForm) : Host ν :=
  p.modifyMethod m fun x => { x with form }

def setLayers (p : Host ν) (s : Nat) (ls : List (Layer ν)) : Host ν :=
  { p with slots := p.slots.modify s fun x => { x with layers := ls } }

def setInit (p : Host ν) (className : String) (s : Option InitState) : Host ν :=
  let others := p.initState.filter (·.1 ≠ className)
  { p with initState := s.elim others fun s => (className, s) :: others }

def addNote (p : Host ν) (n : ν) : Host ν := { p with notes := n :: p.notes }

/-- Adds one to a counter and answers the new count. -/
def count (p : Host ν) (counter : Nat) : Nat × Host ν :=
  let n := (p.counters.lookup counter).getD 0 + 1
  (n, { p with counters := (counter, n) :: p.counters.filter (·.1 ≠ counter) })

/-- Declares a method. Methods are numbered from one in order of declaration. -/
def declare (p : Host ν) (className name : String) (params : List String) (ret : String)
    (flags : MethodFlags) (form : ExecForm) (body : Body ν) : Host ν :=
  let id : MethodId := ⟨UInt64.ofNat (p.methods.length + 1)⟩
  { p with methods := p.methods ++
      [{ info := { id, className, name, params, ret, flags }, form, entry := .body body }] }

/-- Gives a class its initialiser, in place of an earlier one. -/
def setClassInit (p : Host ν) (className : String) (init : Program ν .plain) : Host ν :=
  { p with classInits := p.classInits.filter (·.1 ≠ className) ++ [(className, init)] }

end Host

end Interpose
