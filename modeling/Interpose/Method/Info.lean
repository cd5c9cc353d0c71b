/-
Interpose.Method.Info — what is known of a declared method.
-/
import Interpose.Method.Descriptor

namespace Interpose

/-- The number a runtime gives to a method when it is declared. -/
structure MethodId where
  raw : UInt64
  deriving DecidableEq, Repr, Inhabited

def MethodId.text (m : MethodId) : String := "m#" ++ toString m.raw.toNat

/-! ## Flags and execution forms -/

/-- The attributes of a method, as a set of bits. -/
structure MethodFlags where
  bits : UInt32 := 0
  deriving DecidableEq, Repr, Inhabited

namespace MethodFlags

/-- No body of its own. -/
def isAbstract (f : MethodFlags) : Bool := f.bits &&& 8 != 0

/-- Its dispatch is frozen: it cannot be redirected. -/
def isSealed (f : MethodFlags) : Bool := f.bits &&& 32 != 0

end MethodFlags

/-- How a method is being executed. -/
inductive ExecForm where
  | interpreted
  | jit
  | aot
  /-- Copied into its callers, which pass its dispatch entry by. -/
  | inlined
  /-- Replaced by the runtime itself, for good. -/
  | intrinsic
  deriving DecidableEq, Repr, Inhabited

namespace ExecForm

def name : ExecForm → String
  | interpreted => "Interpreted"
  | jit => "Jit"
  | aot => "Aot"
  | inlined => "Inlined"
  | intrinsic => "Intrinsic"

def ofName? (s : String) : Option ExecForm :=
  [interpreted, jit, aot, inlined, intrinsic].find? (·.name == s)

/-- The dispatch entry is honoured only once the method is interpreted again. -/
def needsDeopt (f : ExecForm) : Bool := f == jit || f == aot || f == inlined

def deoptimizable (f : ExecForm) : Bool := f != intrinsic

end ExecForm

/-! ## Methods -/

structure MethodInfo where
  id : MethodId
  className : String
  name : String
  params : List String := []
  ret : String := "void"
  flags : MethodFlags := {}
  deriving DecidableEq, Repr, Inhabited

/-- The descriptor that names a method with its parameter list. -/
def MethodInfo.descriptor (m : MethodInfo) : String :=
  m.className ++ "#" ++ m.name ++ paramText m.params

/-- All that is declared: the methods in order of declaration, and the
classes that exist without needing a method, because they have an
initialiser. -/
structure Declarations where
  methods : List MethodInfo := []
  bareClasses : List String := []
  deriving Repr, Inhabited

namespace Declarations

def classExists (ds : Declarations) (className : String) : Bool :=
  ds.methods.any (·.className == className) || ds.bareClasses.contains className

/-- Every overload of a name, in order of declaration. -/
def named (ds : Declarations) (className name : String) : List MethodInfo :=
  ds.methods.filter fun m => m.className == className && m.name == name

def info? (ds : Declarations) (id : MethodId) : Option MethodInfo :=
  ds.methods.find? (·.id == id)

end Declarations

end Interpose
