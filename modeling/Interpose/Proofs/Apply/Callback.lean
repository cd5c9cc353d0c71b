/-
Interpose.Proofs.Apply.Callback — what holds while a callback runs.

Of what a callback may ask for, four things touch the process: a note, a
call of what lies below a hook, an install that is refused and one that is
not. What survives these four survives the callback, to whatever end it
comes (`run_upholds`, by induction on it). What survives may depend on the
handles that the callback has been given so far.
-/
import Interpose.Apply
import Interpose.Proofs.Hook.Running

namespace Interpose

variable {ν σ : Type}

/-! ## Callbacks within a permit -/

/-- The hooks that the callback installs keep to the permit. The permit is
not needed to install them: that is what a callback is for. -/
def Init.Within (may : Permit) : Init ν → Prop
  | .finish _ => True
  | .note _ k => k.Within may
  | .resolve _ k => ∀ a, (k a).Within may
  | .hook _ h k => h.Within may ∧ ∀ a, (k a).Within may
  | .hookMethod _ h k => h.Within may ∧ ∀ a, (k a).Within may
  | .hookAll _ _ h k => h.Within may ∧ ∀ a, (k a).Within may
  | .callBase _ _ k => ∀ a, (k a).Within may
  | .look k => ∀ ctx r ds, (k ctx r ds).Within may

def Source.Within (may : Permit) (source : Source ν σ) : Prop :=
  ∀ e s init, (source e s).1 = .ready init → init.Within may

theorem Init.within_any (init : Init ν) : init.Within .any := by
  induction init with
  | finish _ => trivial
  | note _ _ ih => exact ih
  | resolve _ _ ih => exact ih
  | hook _ h _ ih => exact ⟨h.within_any, ih⟩
  | hookMethod _ h _ ih => exact ⟨h.within_any, ih⟩
  | hookAll _ _ h _ ih => exact ⟨h.within_any, ih⟩
  | callBase _ _ _ ih => exact ih
  | look _ ih => exact ih

theorem Source.within_any (source : Source ν σ) : source.Within .any :=
  fun _ _ init _ => init.within_any

/-! ## Quiet callbacks -/

/-- The hooks that the callback installs are quiet. -/
def Init.QuietUnless (may : Prop) : Init ν → Prop
  | .finish _ => True
  | .note _ k => k.QuietUnless may
  | .resolve _ k => ∀ a, (k a).QuietUnless may
  | .hook _ h k => h.QuietUnless may ∧ ∀ a, (k a).QuietUnless may
  | .hookMethod _ h k => h.QuietUnless may ∧ ∀ a, (k a).QuietUnless may
  | .hookAll _ _ h k => h.QuietUnless may ∧ ∀ a, (k a).QuietUnless may
  | .callBase _ _ k => ∀ a, (k a).QuietUnless may
  | .look k => ∀ ctx r ds, (k ctx r ds).QuietUnless may

def Source.QuietUnless (may : Prop) (source : Source ν σ) : Prop :=
  ∀ e s init, (source e s).1 = .ready init → init.QuietUnless may

theorem Init.QuietUnless.within {may : Prop} {init : Init ν} (h : init.QuietUnless may) :
    init.Within (.hooksIf may) := by
  induction init with
  | finish _ => trivial
  | note _ _ ih => exact ih h
  | resolve _ _ ih => exact fun a => ih a (h a)
  | hook _ _ _ ih => exact ⟨h.1.within, fun a => ih a (h.2 a)⟩
  | hookMethod _ _ _ ih => exact ⟨h.1.within, fun a => ih a (h.2 a)⟩
  | hookAll _ _ _ _ ih => exact ⟨h.1.within, fun a => ih a (h.2 a)⟩
  | callBase _ _ _ ih => exact fun a => ih a (h a)
  | look _ ih => exact fun ctx r ds => ih ctx r ds (h ctx r ds)

theorem Source.QuietUnless.within {may : Prop} {source : Source ν σ}
    (h : source.QuietUnless may) : source.Within (.hooksIf may) :=
  fun e s init hinit => (h e s init hinit).within

variable {may : Permit}

/-! ## Callbacks that run -/

namespace HookContext

/-- What callbacks of a module do not undo, said of the handles they have
been given and the process. -/
structure Upholds (ctx : HookContext) (may : Permit) (e : Host.Enter ν)
    (P : List HookHandle → Host ν → Prop) : Prop where
  note : ∀ hs p n, P hs p → P hs (p.addNote n)
  called : ∀ hs p g c a, Host.callBaseWith e g c p = some a → P hs p → P hs a.2
  refused : ∀ hs p m h err q, h.Within may →
    p.install m h ctx.priority ctx.moduleId = (.error err, q) → P hs p → P hs q
  installed : ∀ hs p m h g q, h.Within may →
    p.install m h ctx.priority ctx.moduleId = (.ok g, q) → P hs p → P (hs ++ [g]) q

variable {ctx : HookContext} {e : Host.Enter ν} {P : List HookHandle → Host ν → Prop}
variable {h : Hook ν} {r : InitRecord} {p : Host ν}

theorem installOn_upholds (hP : ctx.Upholds may e P) (hh : h.Within may) (m : MethodId)
    (label : String) (hp : P r.installed p) :
    P (ctx.installOn m label h r p).2.1.installed (ctx.installOn m label h r p).2.2 := by
  unfold installOn
  split
  · rename_i heq
    exact hP.installed _ _ _ _ _ _ hh heq hp
  · rename_i heq
    exact hP.refused _ _ _ _ _ _ hh heq hp

theorem hook_upholds (hP : ctx.Upholds may e P) (hh : h.Within may) (descriptor : String)
    (hp : P r.installed p) :
    P (ctx.hook descriptor h r p).2.1.installed (ctx.hook descriptor h r p).2.2 := by
  unfold hook
  split
  · exact installOn_upholds hP hh _ _ hp
  · exact hp

theorem hookMethod_upholds (hP : ctx.Upholds may e P) (hh : h.Within may) (m : MethodId)
    (hp : P r.installed p) :
    P (ctx.hookMethod m h r p).2.1.installed (ctx.hookMethod m h r p).2.2 :=
  installOn_upholds hP hh m _ hp

theorem hookEach_upholds (hP : ctx.Upholds may e P) (hh : h.Within may) (ms : List MethodId)
    (hp : P r.installed p) :
    P (ctx.hookEach h ms r p).2.1.installed (ctx.hookEach h ms r p).2.2 := by
  induction ms generalizing r p with
  | nil => exact hp
  | cons m ms ih =>
    have hq := hookMethod_upholds hP hh m hp
    unfold hookEach
    split
    · rename_i heq
      rw [heq] at hq
      exact ih hq
    · rename_i heq
      rw [heq] at hq
      exact ih hq

theorem hookAll_upholds (hP : ctx.Upholds may e P) (hh : h.Within may)
    (className name : String) (hp : P r.installed p) :
    P (ctx.hookAll className name h r p).2.1.installed (ctx.hookAll className name h r p).2.2 := by
  unfold hookAll
  split
  · exact hp
  · rename_i ms _
    have hq := hookEach_upholds hP hh ms hp
    split
    · rename_i heq
      rw [heq] at hq
      exact hq
    · rename_i heq
      rw [heq] at hq
      exact hq

/-- **What a callback's requests do not undo, the callback does not undo.** -/
theorem run_upholds (hP : ctx.Upholds may e P) (init : Init ν) (hinit : init.Within may)
    (hp : P r.installed p) {a : (InitEnd × InitRecord) × Host ν}
    (h : ctx.run e init r p = some a) : P a.1.2.installed a.2 := by
  induction init generalizing r p with
  | finish ended =>
    cases h
    exact hp
  | note n k ih => exact ih hinit (hP.note _ _ n hp) h
  | resolve d k ih => exact ih _ (hinit _) hp h
  | hook d hk k ih => exact ih _ (hinit.2 _) (hook_upholds hP hinit.1 d hp) h
  | hookMethod m hk k ih => exact ih _ (hinit.2 _) (hookMethod_upholds hP hinit.1 m hp) h
  | hookAll c n hk k ih => exact ih _ (hinit.2 _) (hookAll_upholds hP hinit.1 c n hp) h
  | callBase g c k ih =>
    obtain ⟨b, hb, hr⟩ := Option.bind_eq_some_iff.mp h
    exact ih _ (hinit _) (hP.called _ _ g c b hb hp) hr
  | look k ih => exact ih _ _ _ (hinit _ _ _) hp h

end HookContext

end Interpose
