/-
Interpose.Host.Hooks — putting hooks in and taking them out.

A method is redirected to a dispatcher when its first layer comes and gets
its entry back when the last one goes. If the runtime refuses to give the
entry back, the dispatcher stays with an empty chain, so that the method
still does what it did, and the slot is there for the next layer.
-/
import Interpose.Host.State

namespace Interpose.Host

variable {ν : Type}

/-! ## What the runtime does for the table -/

/-- Makes a method interpreted again. -/
def deoptimize (p : Host ν) (m : MethodId) : Except RuntimeError Unit × Host ν :=
  if (p.refusals m).stuck then (.ok (), p)
  else match (p.refusals m).deopt with
    | some r => (.error (r.error m), p)
    | none =>
      match p.method? m with
      | none => (.error (.unknownMethod m), p)
      | some x =>
        if !x.form.deoptimizable then (.error (.deoptUnsupported m), p)
        else if x.form = .interpreted then (.ok (), p)
        else (.ok (), { p.setForm m .interpreted with deoptCount := p.deoptCount + 1 })

/-- Points a method's entry elsewhere, which a sealed method does not allow. -/
def redirect (p : Host ν) (m : MethodId) (e : Entry ν) : Except RuntimeError (Host ν) :=
  match (p.refusals m).redirect with
  | some r => .error (r.error m)
  | none =>
    match p.info? m with
    | none => .error (.unknownMethod m)
    | some info =>
      if info.flags.isSealed then .error (.rejected (info.descriptor ++ " is sealed"))
      else .ok (p.setEntry m e)

/-- Gives a method an earlier entry back. -/
def restore (p : Host ν) (m : MethodId) (e : Entry ν) : Except RuntimeError (Host ν) :=
  match (p.refusals m).restore with
  | some r => .error (r.error m)
  | none =>
    match p.info? m with
    | none => .error (.unknownMethod m)
    | some _ => .ok (p.setEntry m e)

/-! ## Installing -/

/-- Whether a hook may stand on a method, as far as its declaration tells. -/
def checkTarget (info : MethodInfo) (expects : Option (List String)) : Except HookError Unit :=
  if info.flags.isSealed then .error (.frozen info.descriptor)
  else if info.flags.isAbstract then .error (.abstractMethod info.descriptor)
  else match expects with
    | some ps =>
      if ps = info.params then .ok () else .error (.wrongParams info.descriptor ps info.params)
    | none => .ok ()

/-- Brings a method into the form in which its entry is honoured. -/
def makeRedirectable (p : Host ν) (m : MethodId) (desc : String) :
    Except HookError Unit × Host ν :=
  match p.form? m with
  | none => (.error (.unresolvable desc), p)
  | some form =>
    if form = .interpreted then (.ok (), p)
    else if !form.deoptimizable then (.error (.notHookable desc (.fixedForm form)), p)
    else
      match p.deoptimize m with
      | (.error (.deoptUnsupported _), p) =>
        (.error (.notHookable desc (.deoptUnsupported form)), p)
      | (.error e, p) => (.error (.notHookable desc (.deoptRefused e)), p)
      | (.ok (), p) =>
        if p.form? m = some .interpreted then (.ok (), p)
        else (.error (.notHookable desc (.stillIn (p.form? m))), p)

/-- Uses up the next handle, and with it the next place in the order. -/
def drawHandle (p : Host ν) : Host ν :=
  { p with table := { p.table with nextHandle := p.table.nextHandle + 1 } }

/-- Makes a handle live on a method. -/
def grant (p : Host ν) (h : HookHandle) (m : MethodId) : Host ν :=
  { p with table := { p.table with
      live := p.table.live ++ [(h, m)], granted := p.table.granted ++ [h] } }

/-- Puts a further layer into a slot. -/
def pushLayer (p : Host ν) (s : Nat) (l : Layer ν) : Host ν :=
  { p with slots := p.slots.modify s fun x =>
      { x with layers := (x.layers ++ [l]).mergeSort Layer.before } }

/-- Puts the first layer onto a method: a new slot above its present entry,
and a dispatcher in the entry's place. -/
def openSlot (p : Host ν) (m : MethodId) (desc : String) (l : Layer ν) :
    Except HookError Unit × Host ν :=
  match p.makeRedirectable m desc with
  | (.error e, p) => (.error e, p)
  | (.ok (), p) =>
    match p.entry? m with
    | none => (.error (.unresolvable desc), p)
    | some base =>
      match p.redirect m (.dispatcher p.slots.length) with
      | .error e => (.error (.notHookable desc (.redirectRefused e)), p)
      | .ok q => (.ok (), { q with
          slots := q.slots ++ [{ method := m, base, layers := [l] }]
          table := { q.table with slotOf := q.table.slotOf ++ [(m, p.slots.length)] } })

/-- Adds a layer to a method. Once the declaration allows it a handle is
used up, whether or not the rest succeeds. -/
def install (p : Host ν) (m : MethodId) (hook : Hook ν) (priority : Int32)
    (moduleId : String) : Except HookError HookHandle × Host ν :=
  match p.info? m with
  | none => (.error (.unresolvable m.text), p)
  | some info =>
    match checkTarget info hook.expects with
    | .error e => (.error e, p)
    | .ok () =>
      let n := p.table.nextHandle
      let layer : Layer ν := { handle := ⟨n⟩, method := m, moduleId, priority, order := n, hook }
      let p := p.drawHandle
      match p.table.slot? m with
      | some s => (.ok ⟨n⟩, (p.pushLayer s layer).grant ⟨n⟩ m)
      | none =>
        match p.openSlot m info.descriptor layer with
        | (.error e, p) => (.error e, p)
        | (.ok (), p) => (.ok ⟨n⟩, p.grant ⟨n⟩ m)

/-! ## Removing -/

/-- Makes a handle dead. -/
def forget (p : Host ν) (h : HookHandle) : Host ν :=
  { p with table := { p.table with live := p.table.live.filter (·.1 ≠ h) } }

/-- Takes a method out of the table; its slot stays for the calls inside it. -/
def closeSlot (p : Host ν) (m : MethodId) : Host ν :=
  { p with table := { p.table with slotOf := p.table.slotOf.filter (·.1 ≠ m) } }

/-- Takes one layer off. The handle is dead afterwards even where the
runtime refuses to give the entry back. -/
def remove (p : Host ν) (h : HookHandle) : Except HookError Unit × Host ν :=
  match p.table.methodOf? h with
  | none => (.error (.unknownHandle h), p)
  | some m =>
    let p := p.forget h
    match p.table.slot? m with
    | none => (.ok (), p)
    | some s =>
      match p.slots[s]? with
      | none => (.ok (), p)
      | some slot =>
        let rest := slot.layers.filter (·.handle ≠ h)
        if rest.isEmpty then
          match p.restore m slot.base with
          | .error e => (.error (.restoreFailed m e), p.setLayers s [])
          | .ok p => (.ok (), p.closeSlot m)
        else (.ok (), p.setLayers s rest)

/-- The live layers of a module, method by method. -/
def ownedBy (p : Host ν) (moduleId : String) : List HookHandle :=
  p.table.slotOf.flatMap fun s =>
    ((p.layers s.1).filter (·.moduleId == moduleId)).map (·.handle)

/-- Removes a list of handles and counts those that were live. -/
def removeAll (p : Host ν) : List HookHandle → Nat × Host ν
  | [] => (0, p)
  | h :: hs =>
    match p.remove h with
    | (.error (.unknownHandle _), p) => p.removeAll hs
    | (_, p) =>
      let (n, p) := p.removeAll hs
      (n + 1, p)

/-- Takes every layer of a module off and counts them. -/
def removeModule (p : Host ν) (moduleId : String) : Nat × Host ν :=
  p.removeAll (p.ownedBy moduleId)

/-! ## Answering -/

/-- The answer to a request that carries no code. -/
def answer (p : Host ν) : (q : Query) → q.Answer × Host ν
  | .remove h => p.remove h
  | .removeModule id => p.removeModule id
  | .setForm m form => ((), p.setForm m form)
  | .deoptimize m => p.deoptimize m
  | .enterApp => ((), { p with appEntered := true })
  | .count c => p.count c
  | .look => (p.view, p)

end Interpose.Host
