/-
Interpose.Exchange.Scripts — described behaviours in JSON.

A script names what a hook, a method body, a class initialiser or the init
callback of a module does. Reading never fails: what is not understood is
taken as the plainest behaviour of its kind.
-/
import Interpose.Exchange.Fields
import Interpose.Script.Setup

namespace Interpose.Exchange

open Script

/-! ## Values and calls -/

def whole? : Json → Option Int
  | .int n => some n
  | _ => none

def readValue (j : Json) : Value :=
  match j with
  | .null => .null
  | .bool b => .bool b
  | .int n => .int (Int64.ofInt n)
  | .text s => .str (s.getD "")
  | _ =>
    match itemsOf (field j "obj") with
    | className :: id => .object (className.text?.getD "")
        (UInt64.ofNat (((id.head?.bind whole?).getD 0).toNat))
    | [] =>
      match text? j "float" with
      | some h => .float ((Text.Hex.word? h.toList).getD 0)
      | none => if flag j "void" then .void else .null

def readValues (j : Json) (k : String) : List Value := (items j k).map readValue

/-- A receiver that is given as null is the null value; only a missing one is none. -/
def readThis (j : Json) : Option Value :=
  if (membersOf j).any (·.1 == "this") then some (readValue (field j "this")) else none

def readCall (j : Json) : Call := { this := readThis j, args := readValues j "args" }

def readThrowable (j : Json) : Throwable :=
  match (itemsOf j).filterMap Json.text? with
  | [c, m] => { className := c, message := m }
  | [c] => { className := c, message := "" }
  | _ => { className := "", message := "" }

def readMethodId (j : Json) : MethodId := ⟨word64 j "method"⟩

def readForm (j : Json) : ExecForm := (ExecForm.ofName? (text j "form")).getD .interpreted

def readAct (j : Json) : HookAct :=
  let v := field j "value"
  let n := Int64.ofInt ((whole? v).getD 0)
  match text j "kind" with
  | "const" => .answer (readValue v)
  | "throw" => .throw (readThrowable v)
  | "tag" => .tag (v.text?.getD "")
  | "add" => .add n
  | "args" => .handOn ((itemsOf v).map readValue)
  | "map_int" => .addToArgs n
  | "rescue" => .rescue (readValue v)
  | "info" => .describe
  | _ => .handOnAsIs

/-! ## Hooks and requests

A hook may make requests of its own, and a request may install a hook. The
first argument bounds how deep that goes; the nesting of the JSON value is
always enough. -/

mutual

def readHookTo (depth : Nat) (j : Json) : HookScript :=
  let before := match depth with
    | 0 => []
    | depth + 1 => (items j "pre").map (readRequestTo depth)
  .mk (readAct j) (text j "kind" == "quiet") (text j "label")
    (if given j "params" then some (texts j "params") else none) before

def readRequestTo (depth : Nat) (j : Json) : Request :=
  let m := readMethodId j
  let h : HookHandle := ⟨nat j "handle"⟩
  match text j "do" with
  | "install" =>
    match depth with
    | 0 => .unknown
    | depth + 1 =>
      .install m (readHookTo depth (field j "hook")) (signed32 j "priority") (text j "module")
  | "remove" => .remove h
  | "remove_module" => .removeModule (text j "module")
  | "call_original" => .callBase h (readCall j)
  | "layers" => .layers m
  | "table" => .table
  | "is_hooked" => .isHooked m
  | "method_of" => .methodOf h
  | "invoke" => .invoke m (readCall j)
  | "invoke_named" => .invokeNamed (text j "class") (text j "name") (readCall j)
  | "parallel" => .repeated m (nat j "threads" * nat j "times") (readValues j "args")
  | "set_form" => .setForm m (readForm j)
  | "form" => .form m
  | "deopt" => .deoptimize m
  | "redirect" => .redirect m (readValue (field j "value"))
  | "enter_app" => .enterApp
  | "init" => .initClass (text j "class")
  | "class" => .classInfo (text j "class") (text j "name")
  | "info" => .info m
  | "resolve" => .resolve (text j "desc")
  | "resolve_all" => .resolveAll (text j "class") (text j "name")
  | _ => .unknown

end

def readHook (j : Json) : HookScript := readHookTo (2 * j.nesting + 2) j

def readRequest (j : Json) : Request := readRequestTo (2 * j.nesting + 2) j

/-! ## Methods and classes -/

def readBodyAct (j : Json) : BodyAct :=
  match j.text? with
  | some "sum" => .sum
  | some "this" => .receiver
  | some "count" => .count
  | _ =>
    if given j "arg" then .arg (nat j "arg")
    else if given j "concat" then .concat (text j "concat")
    else if given j "throw" then .throw (readThrowable (field j "throw"))
    else if given j "call" then
      match texts j "call" with
      | [c, n] => .call c n
      | _ => .answer .void
    else if (membersOf j).any (·.1 == "const") then .answer (readValue (field j "const"))
    else .answer .void

def flagBit (s : String) : UInt32 :=
  match s with
  | "STATIC" => 1
  | "FINAL" => 2
  | "NATIVE" => 4
  | "ABSTRACT" => 8
  | "CONSTRUCTOR" => 16
  | "SEALED" => 32
  | _ => 0

def readFlags (j : Json) : MethodFlags :=
  match j with
  | .int n => ⟨UInt32.ofNat n.toNat⟩
  | _ => ⟨((itemsOf j).filterMap Json.text?).foldl (fun acc s => acc ||| flagBit s) 0⟩

def readRefusal (s : String) : Refusal :=
  match s with
  | "unsupported" => .unsupported
  | "unknown" => .unknown
  | s => .rejected s

def readRefusals (j : Json) : Refusals where
  form := given j "form"
  entry := given j "entry"
  stuck := text j "deopt" == "stuck"
  deopt := (text? j "deopt").map readRefusal
  redirect := (text? j "redirect").map readRefusal
  restore := (text? j "restore").map readRefusal

def readInitStep (j : Json) : InitStep :=
  let h := readHook (field j "with")
  let must := !(given j "must" && !flag j "must")
  if given j "hook" then .hook (text j "hook") h must
  else if given j "hook_method" then .hookMethod ⟨word64 j "hook_method"⟩ h must
  else if given j "hook_all" then
    match texts j "hook_all" with
    | [c, n] => .hookAll c n h must
    | _ => .hookAll "" "" h must
  else if given j "resolve" then .resolve (text j "resolve")
  else if given j "call_original" then .callBase (readValues j "call_original")
  else if given j "info" then .describe
  else if given j "fail" then .fail (texts j "fail")
  else if given j "panic_static" then .panic (some "static payload")
  else if given j "panic_other" then .panic none
  else if given j "panic" then .panic (some (text j "panic"))
  else .describe

/-- A process with all that its description declares. -/
def readProcess (j : Json) : Host Note :=
  let faults := (membersOf (field j "faults")).map fun f =>
    ((f.1.toNat?.getD 0 : Nat), readRefusals f.2)
  let p : Host Note := { refusals := fun m => (faults.lookup m.raw.toNat).getD {} }
  let p := (items j "methods").foldl (fun (p : Host Note) d =>
      let b : BodyScript := {
        name := text d "name", quiet := flag d "quiet", act := readBodyAct (field d "body") }
      p.declare (text d "class") (text d "name") (texts d "params") ((text? d "ret").getD "void")
        (readFlags (field d "flags")) (readForm d) (b.body (2 * p.methods.length))) p
  ((items j "static_init").foldl (fun (acc : Host Note × Nat) d =>
      let s : ClassInitScript := {
        className := text d "class"
        calls := (items d "invoke").map fun c =>
          let parts := itemsOf c
          ((parts[0]?.bind Json.text?).getD "", (parts[1]?.bind Json.text?).getD "",
            (itemsOf (parts[2]?.getD .null)).map readValue)
        failures := nat d "fail_times"
        error := readThrowable (field d "error") }
      (acc.1.setClassInit s.className (s.program (2 * acc.2 + 1)), acc.2 + 1)) (p, 0)).1

def readBuiltins (j : Json) : Loader Note :=
  Loader.builtins ((membersOf (field j "builtins")).map fun f =>
    (f.1, initOf ((itemsOf f.2).map readInitStep)))

end Interpose.Exchange
