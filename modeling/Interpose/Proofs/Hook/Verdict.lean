/-
Interpose.Proofs.Hook.Verdict — what an install answers where nothing is refused.

The answer depends on little: on the method's declaration, on whether the
method is hooked already, and on whether its form can be left. It does not
depend on the form itself, nor on how many layers there are or have been.
So two processes that agree on that little answer the same
(`verdict_congr`), although one may have left forms and used up handles
that the other has not.
-/
import Interpose.Proofs.Hook.Orderly

namespace Interpose.Host

variable {ν : Type}

/-! ## Processes with the same methods -/

/-- The same methods are declared, and the same forms can be left. -/
structure SameMethods (p q : Host ν) : Prop where
  infos : q.methods.map (·.info) = p.methods.map (·.info)
  leavable : ∀ m, (q.method? m).map (·.form.deoptimizable)
    = (p.method? m).map (·.form.deoptimizable)
  classInits : q.classInits = p.classInits

namespace SameMethods

variable {p q r : Host ν}

theorem refl (p : Host ν) : SameMethods p p := ⟨rfl, fun _ => rfl, rfl⟩

theorem symm (h : SameMethods p q) : SameMethods q p :=
  ⟨h.infos.symm, fun m => (h.leavable m).symm, h.classInits.symm⟩

theorem trans (h : SameMethods p q) (g : SameMethods q r) : SameMethods p r :=
  ⟨g.infos.trans h.infos, fun m => (g.leavable m).trans (h.leavable m),
    g.classInits.trans h.classInits⟩

theorem info? (h : SameMethods p q) (m : MethodId) : q.info? m = p.info? m := by
  rw [info?_eq_find?, info?_eq_find?, h.infos]

theorem declarations (h : SameMethods p q) : q.declarations = p.declarations := by
  rw [Host.declarations, Host.declarations, h.infos, h.classInits]

end SameMethods

theorem HooksOnly.sameMethods {p q : Host ν} (h : HooksOnly p q) : SameMethods p q :=
  ⟨h.infos, h.leavable, h.classInits⟩

/-! ## Verdicts -/

/-- Whether a hook may go onto a method, where the runtime refuses nothing. -/
def verdict (p : Host ν) (m : MethodId) (expects : Option (List String)) :
    Except HookError Unit :=
  match p.info? m with
  | none => .error (.unresolvable m.text)
  | some info =>
    match checkTarget info expects with
    | .error e => .error e
    | .ok () =>
      if (p.table.slot? m).isSome || ((p.method? m).map (·.form.deoptimizable)).getD false
      then .ok ()
      else .error (.notHookable info.descriptor (.fixedForm .intrinsic))

theorem verdict_congr {p q : Host ν} (h : SameMethods p q) {m : MethodId}
    (hs : (q.table.slot? m).isSome = (p.table.slot? m).isSome) (expects : Option (List String)) :
    q.verdict m expects = p.verdict m expects := by
  rw [verdict, verdict, h.info?, hs, h.leavable]

theorem not_sealed_of_checkTarget {info : MethodInfo} {expects : Option (List String)}
    (h : checkTarget info expects = .ok ()) : info.flags.isSealed = false := by
  unfold checkTarget at h
  cases hsealed : info.flags.isSealed with
  | false => rfl
  | true =>
    rw [hsealed, if_pos rfl] at h
    cases h

section Willing

variable {p : Host ν} {m : MethodId} {x : Method ν}

theorem form?_willing (hw : p.refusals m = {}) (hx : p.method? m = some x) :
    p.form? m = some x.form := by
  rw [form?, hw, hx]
  rfl

theorem entry?_willing (hw : p.refusals m = {}) (hx : p.method? m = some x) :
    p.entry? m = some x.entry := by
  unfold entry?
  rw [hw, hx]
  rfl

theorem redirect_willing (hw : p.refusals m = {}) (hx : p.method? m = some x)
    (hsealed : x.info.flags.isSealed = false) (e : Entry ν) :
    p.redirect m e = .ok (p.setEntry m e) := by
  have hinfo : p.info? m = some x.info := by rw [info?, hx]; rfl
  rw [redirect, hw, hinfo]
  dsimp only
  rw [hsealed]
  rfl

/-- A form that can be left is left; only one cannot. -/
theorem makeRedirectable_willing (hw : p.refusals m = {}) (hx : p.method? m = some x)
    (desc : String) :
    (x.form.deoptimizable = true ∧ ∃ q y, p.makeRedirectable m desc = (.ok (), q) ∧
      q.refusals = p.refusals ∧ q.method? m = some y ∧ y.info = x.info) ∨
    (x.form.deoptimizable = false ∧
      p.makeRedirectable m desc = (.error (.notHookable desc (.fixedForm .intrinsic)), p)) := by
  have hform := form?_willing hw hx
  by_cases hint : x.form = .interpreted
  · refine .inl ⟨by rw [hint]; rfl, p, x, ?_, rfl, hx, rfl⟩
    rw [makeRedirectable, hform]
    dsimp only
    rw [if_pos hint]
  · cases hdeopt : x.form.deoptimizable with
    | false =>
      have hintrinsic : x.form = .intrinsic := by
        cases hf : x.form <;> rw [hf] at hdeopt <;> first | rfl | cases hdeopt
      refine .inr ⟨rfl, ?_⟩
      rw [makeRedirectable, hform]
      dsimp only
      rw [if_neg hint, hdeopt, hintrinsic]
      rfl
    | true =>
      obtain ⟨q, hq⟩ : ∃ q : Host ν,
          q = { p.setForm m .interpreted with deoptCount := p.deoptCount + 1 } := ⟨_, rfl⟩
      have hrun : p.deoptimize m = (.ok (), q) := by
        rw [deoptimize, hw]
        dsimp only
        rw [hx]
        dsimp only
        rw [hdeopt, if_neg hint, hq]
        rfl
      have hrefusals : q.refusals = p.refusals := by rw [hq]; rfl
      have hafter : q.method? m = some { x with form := .interpreted } := by
        rw [hq]
        show (p.setForm m .interpreted).method? m = _
        rw [method?_setForm, hx, Option.map_some, if_pos rfl]
      refine .inl ⟨rfl, q, _, ?_, hrefusals, hafter, rfl⟩
      have hwq : q.refusals m = {} := by rw [hrefusals]; exact hw
      rw [makeRedirectable, hform]
      dsimp only
      rw [if_neg hint, hdeopt, hrun]
      dsimp only
      rw [form?_willing hwq hafter]
      rfl

theorem openSlot_willing (hw : p.refusals m = {}) (hx : p.method? m = some x)
    (hsealed : x.info.flags.isSealed = false) (desc : String) (l : Layer ν) :
    (p.openSlot m desc l).1 = if x.form.deoptimizable then .ok ()
      else .error (.notHookable desc (.fixedForm .intrinsic)) := by
  rcases makeRedirectable_willing hw hx desc with ⟨hdeopt, q, y, heq, hr, hy, hinfo⟩ | ⟨hdeopt, heq⟩
  · have hwq : q.refusals m = {} := by rw [hr]; exact hw
    have hsq : y.info.flags.isSealed = false := by rw [hinfo]; exact hsealed
    rw [openSlot, heq, hdeopt]
    dsimp only
    rw [entry?_willing hwq hy]
    dsimp only
    rw [redirect_willing hwq hy hsq]
    rfl
  · rw [openSlot, heq, hdeopt]
    rfl

/-- **An install that nothing refuses answers its verdict.** -/
theorem install_fst (hw : p.refusals m = {}) (hook : Hook ν) (priority : Int32)
    (moduleId : String) :
    (p.install m hook priority moduleId).1
      = (p.verdict m hook.expects).map fun _ => ⟨p.table.nextHandle⟩ := by
  unfold install verdict
  cases hinfo : p.info? m with
  | none => rfl
  | some info =>
    dsimp only
    cases hcheck : checkTarget info hook.expects with
    | error e => rfl
    | ok _ =>
      dsimp only
      cases hslot : p.table.slot? m with
      | some s =>
        have hslot' : p.drawHandle.table.slot? m = some s := hslot
        rw [hslot']
        rfl
      | none =>
        have hslot' : p.drawHandle.table.slot? m = none := hslot
        obtain ⟨x, hx, rfl⟩ := Option.map_eq_some_iff.mp hinfo
        rw [hslot']
        dsimp only
        generalize hopen : p.drawHandle.openSlot m x.info.descriptor _ = opened
        have hfst := congrArg Prod.fst hopen
        rw [openSlot_willing (p := p.drawHandle) hw hx (not_sealed_of_checkTarget hcheck)] at hfst
        obtain ⟨r, q⟩ := opened
        rw [hx, Option.map_some, Option.getD_some]
        cases hdeopt : x.form.deoptimizable with
        | true =>
          rw [hdeopt] at hfst
          cases hfst
          rfl
        | false =>
          rw [hdeopt] at hfst
          cases hfst
          rfl

end Willing

end Interpose.Host
