/-
Interpose.Proofs.Hook.Forms — in which form a method is left by an install.

A runtime honours the entry of a method only as long as the method is
interpreted. So before a method gets its first layer its form is looked at,
and left if it can be left. A further layer goes into the slot that is
there, and the form is not looked at again: what an install says of the form
depends on whether there was a slot (`installForm`).

No operation on the hook table takes a method out of the interpreted form.
Only the runtime does, when it compiles the method; as long as it compiles
none that is hooked (`FormsKept`), all that are hooked are interpreted
(`hookedInterpreted_afterAll`).

Main statement: `installs_and_forms`.
-/
import Interpose.Proofs.Hook.Reference

namespace Interpose.Host

variable {ν : Type} {p q : Host ν} {m a : MethodId}

/-! ## Forms -/

/-- The form of a declared method, whether or not the runtime tells it. -/
def formOf? (p : Host ν) (m : MethodId) : Option ExecForm := (p.method? m).map (·.form)

/-- The method is in the form in which its entry is honoured. -/
def Interpreted (p : Host ν) (m : MethodId) : Prop := p.formOf? m = some .interpreted

theorem formOf?_of_form? {f : ExecForm} (h : p.form? m = some f) : p.formOf? m = some f := by
  rw [form?] at h
  split at h
  · cases h
  · exact h

theorem formOf?_setEntry (p : Host ν) (m a : MethodId) (e : Entry ν) :
    (p.setEntry m e).formOf? a = p.formOf? a := by
  rw [formOf?, formOf?, method?_setEntry, Option.map_map]
  congr 1
  funext x
  by_cases ha : a = m <;> simp [ha]

theorem formOf?_setForm (p : Host ν) (m a : MethodId) (form : ExecForm) :
    (p.setForm m form).formOf? a = if a = m then (p.formOf? a).map fun _ => form else p.formOf? a := by
  rw [formOf?, formOf?, method?_setForm, Option.map_map]
  by_cases ha : a = m
  · rw [if_pos ha, Option.map_map]
    congr 1
    funext x
    simp [ha]
  · rw [if_neg ha]
    congr 1
    funext x
    simp [ha]

/-- What is interpreted stays so. -/
def KeepsInterpreted (p q : Host ν) : Prop := ∀ a, p.Interpreted a → q.Interpreted a

theorem KeepsInterpreted.trans {r : Host ν} (h : KeepsInterpreted p q) (g : KeepsInterpreted q r) :
    KeepsInterpreted p r :=
  fun a ha => g a (h a ha)

theorem keepsInterpreted_of_forms (h : ∀ a, q.formOf? a = p.formOf? a) : KeepsInterpreted p q :=
  fun a ha => (h a).trans ha

/-! ## Leaving a form -/

theorem keepsInterpreted_deoptimize (p : Host ν) (m : MethodId) :
    KeepsInterpreted p (p.deoptimize m).2 := by
  intro a ha
  unfold deoptimize
  split
  next => exact ha
  split
  next => exact ha
  split
  next => exact ha
  split
  next => exact ha
  split
  next => exact ha
  next =>
    have hset := formOf?_setForm p m a .interpreted
    rw [show p.formOf? a = some .interpreted from ha, Option.map_some, ite_self] at hset
    exact hset

/-- **A method that was made redirectable is interpreted**, and no other has left that form. -/
theorem makeRedirectable_forms (p : Host ν) (m : MethodId) (desc : String) :
    KeepsInterpreted p (p.makeRedirectable m desc).2 ∧
      ((p.makeRedirectable m desc).1 = .ok () → (p.makeRedirectable m desc).2.Interpreted m) := by
  have hkeeps := keepsInterpreted_deoptimize p m
  unfold makeRedirectable
  split
  next => exact ⟨fun _ ha => ha, fun h => nomatch h⟩
  next form hform =>
  split
  next hint =>
    subst hint
    exact ⟨fun _ ha => ha, fun _ => formOf?_of_form? hform⟩
  split
  next => exact ⟨fun _ ha => ha, fun h => nomatch h⟩
  split
  next heq => exact ⟨by rwa [heq] at hkeeps, fun h => nomatch h⟩
  next heq => exact ⟨by rwa [heq] at hkeeps, fun h => nomatch h⟩
  next heq =>
    rw [heq] at hkeeps
    split
    next hleft => exact ⟨hkeeps, fun _ => formOf?_of_form? hleft⟩
    next => exact ⟨hkeeps, fun h => nomatch h⟩

/-- The first layer of a method finds it interpreted, or does not come. -/
theorem openSlot_forms (p : Host ν) (m : MethodId) (desc : String) (l : Layer ν) :
    KeepsInterpreted p (p.openSlot m desc l).2 ∧
      ((p.openSlot m desc l).1 = .ok () → (p.openSlot m desc l).2.Interpreted m) := by
  have hmade := makeRedirectable_forms p m desc
  unfold openSlot
  generalize p.makeRedirectable m desc = made at hmade
  obtain ⟨r, q⟩ := made
  cases r with
  | error e => exact ⟨hmade.1, fun h => nomatch h⟩
  | ok _ =>
    dsimp only at hmade ⊢
    split
    next => exact ⟨hmade.1, fun h => nomatch h⟩
    split
    next => exact ⟨hmade.1, fun h => nomatch h⟩
    next q' hred =>
      have hforms : ∀ a, q'.formOf? a = q.formOf? a := fun a => by
        rw [redirect_eq_ok hred]
        exact formOf?_setEntry q m a _
      exact ⟨hmade.1.trans (keepsInterpreted_of_forms hforms),
        fun _ => (hforms m).trans (hmade.2 rfl)⟩

/-! ## Installing -/

section Install

variable (p) (m) (hook : Hook ν) (priority : Int32) (moduleId : String)

/-- An install that goes well has passed the checks of the declaration. -/
theorem checked_of_install {h : HookHandle} (hok : (p.install m hook priority moduleId).1 = .ok h) :
    ∃ info, p.info? m = some info ∧ checkTarget info hook.expects = .ok () := by
  unfold install at hok
  split at hok
  next => cases hok
  next info hinfo =>
    split at hok
    next => cases hok
    next hcheck => exact ⟨info, hinfo, hcheck⟩

variable {p} {m} {hook} {info : MethodInfo} (hinfo : p.info? m = some info)
  (hcheck : checkTarget info hook.expects = .ok ())

include hinfo hcheck

/-- Past the checks, a method with a slot gets a further layer. -/
theorem install_further {s : Nat} (hs : p.table.slot? m = some s) :
    p.install m hook priority moduleId = (.ok ⟨p.table.nextHandle⟩,
      (p.drawHandle.pushLayer s (p.newLayer m hook priority moduleId)).grant
        ⟨p.table.nextHandle⟩ m) := by
  have hs' : p.drawHandle.table.slot? m = some s := hs
  rw [install, hinfo]
  dsimp only
  rw [hcheck]
  dsimp only
  rw [hs']
  rfl

/-- Past the checks, a method without one gets a slot, or that is refused. -/
theorem install_first (hs : p.table.slot? m = none) :
    p.install m hook priority moduleId
      = match p.drawHandle.openSlot m info.descriptor (p.newLayer m hook priority moduleId) with
        | (.error e, q) => (.error e, q)
        | (.ok (), q) => (.ok ⟨p.table.nextHandle⟩, q.grant ⟨p.table.nextHandle⟩ m) := by
  have hs' : p.drawHandle.table.slot? m = none := hs
  rw [install, hinfo]
  dsimp only
  rw [hcheck]
  dsimp only
  rw [hs']
  rfl

/-- A form that cannot be left keeps the first layer away. -/
theorem install_first_refused {f : ExecForm} (hs : p.table.slot? m = none)
    (hform : p.form? m = some f) (hfixed : f.deoptimizable = false) :
    (p.install m hook priority moduleId).1 = .error (.notHookable info.descriptor (.fixedForm f)) := by
  have hform' : p.drawHandle.form? m = some f := hform
  have hne : f ≠ .interpreted := by
    rintro rfl
    cases hfixed
  have hmade : p.drawHandle.makeRedirectable m info.descriptor
      = (.error (.notHookable info.descriptor (.fixedForm f)), p.drawHandle) := by
    rw [makeRedirectable, hform']
    dsimp only
    rw [if_neg hne, hfixed]
    rfl
  rw [install_first priority moduleId hinfo hcheck hs, openSlot, hmade]

omit hinfo hcheck

variable (p) (m) (hook)

theorem keepsInterpreted_install : KeepsInterpreted p (p.install m hook priority moduleId).2 := by
  cases hinfo : p.info? m with
  | none =>
    rw [install, hinfo]
    exact fun _ ha => ha
  | some info =>
    cases hcheck : checkTarget info hook.expects with
    | error e =>
      rw [install, hinfo]
      dsimp only
      rw [hcheck]
      exact fun _ ha => ha
    | ok _ =>
      cases hs : p.table.slot? m with
      | some s =>
        rw [install_further priority moduleId hinfo hcheck hs]
        exact fun _ ha => ha
      | none =>
        have hopen := (openSlot_forms p.drawHandle m info.descriptor
          (p.newLayer m hook priority moduleId)).1
        rw [install_first priority moduleId hinfo hcheck hs]
        split <;> next heq => rw [heq] at hopen; exact hopen

/-- What an install says of the form of its method. -/
structure InstallForm : Prop where
  /-- The first layer leaves a method interpreted. -/
  first : p.table.slot? m = none → ∀ h, (p.install m hook priority moduleId).1 = .ok h →
    (p.install m hook priority moduleId).2.Interpreted m
  /-- A method whose form cannot be left gets no first layer. -/
  refused : p.table.slot? m = none → ∀ info f, p.info? m = some info →
    checkTarget info hook.expects = .ok () → p.form? m = some f → f.deoptimizable = false →
    (p.install m hook priority moduleId).1 = .error (.notHookable info.descriptor (.fixedForm f))
  /-- A further layer comes onto a method in whichever form it is, and leaves it in that form. -/
  further : p.table.slot? m ≠ none → ∀ info, p.info? m = some info →
    checkTarget info hook.expects = .ok () →
    (p.install m hook priority moduleId).1 = .ok ⟨p.table.nextHandle⟩ ∧
      ∀ a, (p.install m hook priority moduleId).2.formOf? a = p.formOf? a

/-- **The form is looked at when the first layer comes, and only then.** -/
theorem installForm : p.InstallForm m hook priority moduleId := by
  refine ⟨fun hs h hok => ?_, fun hs info f hinfo hcheck hform hfixed => ?_,
    fun hs info hinfo hcheck => ?_⟩
  · obtain ⟨info, hinfo, hcheck⟩ := p.checked_of_install m hook priority moduleId hok
    have hopen := (openSlot_forms p.drawHandle m info.descriptor
      (p.newLayer m hook priority moduleId)).2
    rw [install_first priority moduleId hinfo hcheck hs] at hok ⊢
    split at hok
    next => cases hok
    next heq =>
      rw [heq] at hopen
      exact hopen rfl
  · exact install_first_refused priority moduleId hinfo hcheck hs hform hfixed
  · obtain ⟨s, hs⟩ := Option.ne_none_iff_exists'.mp hs
    rw [install_further priority moduleId hinfo hcheck hs]
    exact ⟨rfl, fun _ => rfl⟩

end Install

/-! ## Removing -/

theorem formOf?_remove (p : Host ν) (h : HookHandle) (a : MethodId) :
    (p.remove h).2.formOf? a = p.formOf? a := by
  unfold remove
  split
  next => rfl
  dsimp only
  split
  next => rfl
  split
  next => rfl
  split
  next =>
    split
    next => rfl
    next hres =>
      rw [restore_eq_ok hres]
      exact formOf?_setEntry _ _ _ _
  next => rfl

/-- No removal gives a method a slot. -/
theorem slot?_of_remove {p : Host ν} {h : HookHandle} {a : MethodId}
    (hs : (p.remove h).2.table.slot? a ≠ none) : p.table.slot? a ≠ none := by
  unfold remove at hs
  split at hs
  next => exact hs
  dsimp only at hs
  split at hs
  next => exact hs
  split at hs
  next => exact hs
  split at hs
  next =>
    split at hs
    next => exact hs
    next hres =>
      rw [restore_eq_ok hres, slot?_closeSlot] at hs
      split at hs
      next => exact absurd rfl hs
      next => exact hs
  next => exact hs

/-! ## Operations -/

/-- All hooked methods are interpreted. -/
def HookedInterpreted (p : Host ν) : Prop := ∀ a, p.table.slot? a ≠ none → p.Interpreted a

theorem HookedInterpreted.of_kept (h : p.HookedInterpreted) (hkeeps : KeepsInterpreted p q)
    (hslots : ∀ a, q.table.slot? a ≠ none → p.table.slot? a ≠ none) : q.HookedInterpreted :=
  fun a ha => hkeeps a (h a (hslots a ha))

theorem HookedInterpreted.remove (h : p.HookedInterpreted) (g : HookHandle) :
    (p.remove g).2.HookedInterpreted :=
  h.of_kept (keepsInterpreted_of_forms (p.formOf?_remove g)) fun _ => slot?_of_remove

theorem HookedInterpreted.removeAll (h : p.HookedInterpreted) (hs : List HookHandle) :
    (p.removeAll hs).2.HookedInterpreted := by
  induction hs generalizing p with
  | nil => exact h
  | cons g hs ih =>
    rw [removeAll_cons_snd]
    exact ih (h.remove g)

theorem HookedInterpreted.install (h : p.HookedInterpreted) (m : MethodId) (hook : Hook ν)
    (priority : Int32) (moduleId : String) :
    (p.install m hook priority moduleId).2.HookedInterpreted := by
  have hkeeps := p.keepsInterpreted_install m hook priority moduleId
  intro a ha
  by_cases hslot : p.table.slot? a = none
  · -- the slot is new, so it is the method's own, and its first
    by_cases ham : a = m
    · subst ham
      rcases p.install_cases a hook priority moduleId with
        ⟨e, q, i, heq, hi⟩ | ⟨s, hs, _⟩ | ⟨_, q, x, _, _, heq⟩
      · rw [heq] at ha
        exact absurd ((hi.slot? a).trans hslot) ha
      · cases hslot.symm.trans hs
      · exact (p.installForm a hook priority moduleId).first hslot _ (congrArg Prod.fst heq)
    · rw [p.slot?_install m hook priority moduleId ham] at ha
      exact absurd hslot ha
  · exact hkeeps a (h a hslot)

/-- The runtime compiles nothing that is hooked; whatever else is done. -/
def KeepsForms (p : Host ν) : TableOp ν → Prop
  | .setForm m form => form = .interpreted ∨ p.table.slot? m = none
  | _ => True

theorem HookedInterpreted.perform (h : p.HookedInterpreted) {op : TableOp ν} (hkeeps : p.KeepsForms op) :
    (p.perform op).2.HookedInterpreted := by
  cases op with
  | declare className name params ret flags form body =>
    refine h.of_kept (fun a ha => ?_) fun _ ha => ha
    obtain ⟨x, hx, hform⟩ := Option.map_eq_some_iff.mp ha
    show ((p.declare className name params ret flags form body).method? a).map (·.form) = _
    rw [method?_declare, hx, Option.some_or]
    exact congrArg some hform
  | setForm m form =>
    intro a ha
    have hslot : p.table.slot? a ≠ none := ha
    have hold : p.formOf? a = some .interpreted := h a hslot
    show (p.setForm m form).formOf? a = _
    rw [formOf?_setForm, hold]
    split
    next ham =>
      rcases hkeeps with rfl | hnone
      · rfl
      · exact absurd (ham ▸ hnone) hslot
    next => rfl
  | install m hook priority moduleId => exact h.install m hook priority moduleId
  | remove g => exact h.remove g
  | removeModule moduleId => exact h.removeAll (p.ownedBy moduleId)
  | refuse refusals => exact h

/-- A process after some operations. -/
def afterAll (p : Host ν) (ops : List (TableOp ν)) : Host ν :=
  ops.foldl (fun p op => (p.perform op).2) p

/-- The runtime compiles no method while it is hooked. -/
def FormsKept : Host ν → List (TableOp ν) → Prop
  | _, [] => True
  | p, op :: ops => p.KeepsForms op ∧ FormsKept (p.perform op).2 ops

/-- **As long as nothing hooked is compiled, all that is hooked is interpreted.** -/
theorem HookedInterpreted.afterAll {ops : List (TableOp ν)} (h : p.HookedInterpreted)
    (hkept : p.FormsKept ops) : (p.afterAll ops).HookedInterpreted := by
  induction ops generalizing p with
  | nil => exact h
  | cons op ops ih => exact ih (h.perform hkept.1) hkept.2

theorem Untouched.hookedInterpreted (h : p.Untouched) : p.HookedInterpreted := by
  intro a ha
  rw [h.table] at ha
  exact absurd rfl ha

/-- **What an install says of the form of its method.** Whatever has been done to a
process, the first layer of a method leaves it interpreted, and is refused if the
form cannot be left; but a further layer comes onto a method in any form. So an
install that goes well leaves its method interpreted, and one whose form cannot be
left is refused to every layer, if the runtime has compiled no method while it was hooked. -/
theorem installs_and_forms (p₀ : Host ν) (h₀ : p₀.Untouched) (ops : List (TableOp ν))
    (m : MethodId) (hook : Hook ν) (priority : Int32) (moduleId : String) :
    let q := p₀.afterAll ops
    q.InstallForm m hook priority moduleId ∧
    (p₀.FormsKept ops →
      (∀ h, (q.install m hook priority moduleId).1 = .ok h →
        (q.install m hook priority moduleId).2.Interpreted m) ∧
      ∀ info f, q.info? m = some info → checkTarget info hook.expects = .ok () →
        q.form? m = some f → f.deoptimizable = false →
        (q.install m hook priority moduleId).1
          = .error (.notHookable info.descriptor (.fixedForm f))) := by
  intro q
  have hform := q.installForm m hook priority moduleId
  refine ⟨hform, fun hkept => ?_⟩
  have hhooked : q.HookedInterpreted := h₀.hookedInterpreted.afterAll hkept
  refine ⟨fun h hok => ?_, fun info f hinfo hcheck hf hfixed => ?_⟩
  · by_cases hs : q.table.slot? m = none
    · exact hform.first hs h hok
    · exact q.keepsInterpreted_install m hook priority moduleId m (hhooked m hs)
  · refine hform.refused (Classical.byContradiction fun hs => ?_) info f hinfo hcheck hf hfixed
    -- a hooked method is in no form that cannot be left
    cases (hhooked m hs).symm.trans (formOf?_of_form? hf)
    cases hfixed

/-- A method that was compiled before it was hooked is interpreted then, and stays so
when another layer comes. -/
theorem installs_and_forms_compiled :
    let ops : List (TableOp Unit) := [.setForm ⟨1⟩ .jit, .install ⟨1⟩ (answering 1) 0 "a"]
    let q := oneMethod.afterAll ops
    oneMethod.FormsKept ops ∧ q.table.slot? ⟨1⟩ ≠ none ∧
      (q.install ⟨1⟩ (answering 2) 0 "b").1 = .ok ⟨2⟩ ∧
      (q.install ⟨1⟩ (answering 2) 0 "b").2.Interpreted ⟨1⟩ := by
  intro ops q
  have hkept : oneMethod.FormsKept ops := ⟨.inr rfl, trivial, trivial⟩
  have hok : (q.install ⟨1⟩ (answering 2) 0 "b").1 = .ok ⟨2⟩ := rfl
  exact ⟨hkept, by decide, hok,
    ((installs_and_forms oneMethod oneMethod_untouched ops ⟨1⟩ (answering 2) 0 "b").2 hkept).1 _ hok⟩

/-- Compiled while it is hooked, a method gets another layer all the same and stays as it
is, even in a form that no first layer would have been put on. -/
theorem installs_on_compiled :
    let compiled := fun f : ExecForm =>
      oneMethod.afterAll [.install ⟨1⟩ (answering 1) 0 "a", .setForm ⟨1⟩ f]
    ((compiled .jit).install ⟨1⟩ (answering 2) 0 "b").1 = .ok ⟨2⟩ ∧
      ((compiled .jit).install ⟨1⟩ (answering 2) 0 "b").2.formOf? ⟨1⟩ = some .jit ∧
      ((compiled .intrinsic).install ⟨1⟩ (answering 2) 0 "b").1 = .ok ⟨2⟩ ∧
      ((compiled .intrinsic).install ⟨1⟩ (answering 2) 0 "b").2.formOf? ⟨1⟩ = some .intrinsic := by
  intro compiled
  exact ⟨rfl, rfl, rfl, rfl⟩

end Interpose.Host
