/-
Interpose.Proofs.Host.Depth — results do not depend on the depth.

A run is told how deep calls may nest, and gives nothing when they nest
deeper. What it gives before that is the same at every greater depth
(`enter_mono`). So a call *yields* a result if it gives it at some depth,
and then the result is the only one (`Yields.unique`).

All that is read of an `Enter` are its results. So the induction is on the
program (`exec_mono`), for any two ways of running entries of which the
second gives whatever the first does; the depths come in at the end.
-/
import Interpose.Host.Run

namespace Interpose.Host

variable {ν : Type}

/-! ## Giving more -/

/-- The second gives every result that the first one gives. -/
def Extends (e₁ e₂ : Enter ν) : Prop :=
  ∀ x c p r, e₁ x c p = some r → e₂ x c p = some r

/-- The same of two ways down. -/
def BelowExtends : {ρ : Role} → Below ν ρ → Below ν ρ → Prop
  | .plain, _, _ => True
  | .layer, b₁, b₂ => ∀ args p r, b₁ args p = some r → b₂ args p = some r

section Extending

variable {e₁ e₂ : Enter ν}

theorem ensureInit_mono (he : Extends e₁ e₂) {className : String} {p : Host ν}
    {r : Except Throwable Unit × Host ν} (h : ensureInit e₁ className p = some r) :
    ensureInit e₂ className p = some r := by
  unfold ensureInit at h ⊢
  by_cases hinit : (p.initState.lookup className).isSome = true
  · rw [if_pos hinit] at h ⊢
    exact h
  · rw [if_neg hinit] at h ⊢
    dsimp only at h ⊢
    cases hclass : (p.setInit className (some .running)).classInits.lookup className with
    | none => rw [hclass] at h; exact h
    | some init =>
      rw [hclass] at h
      obtain ⟨a, ha, rfl⟩ := Option.map_eq_some_iff.mp h
      exact Option.map_eq_some_iff.mpr ⟨a, he _ _ _ _ ha, rfl⟩

theorem invokeWith_mono (he : Extends e₁ e₂) {m : MethodId} {c : Call} {p : Host ν}
    {r : Outcome × Host ν} (h : invokeWith e₁ m c p = some r) : invokeWith e₂ m c p = some r := by
  unfold invokeWith at h ⊢
  split at h
  · exact h
  · obtain ⟨⟨a, q⟩, ha, hr⟩ := Option.bind_eq_some_iff.mp h
    refine Option.bind_eq_some_iff.mpr ⟨⟨a, q⟩, ensureInit_mono he ha, ?_⟩
    cases a with
    | error t => exact hr
    | ok _ =>
      dsimp only at hr ⊢
      split at hr
      · exact hr
      · exact he _ _ _ _ hr

theorem callBaseWith_mono (he : Extends e₁ e₂) {h : HookHandle} {c : Call} {p : Host ν}
    {r : Outcome × Host ν} (hr : callBaseWith e₁ h c p = some r) :
    callBaseWith e₂ h c p = some r := by
  unfold callBaseWith at hr ⊢
  split at hr
  · exact he _ _ _ _ hr
  · exact hr

/-- A program comes to the same, whoever runs what it calls. -/
theorem exec_mono (he : Extends e₁ e₂) {ρ : Role} (code : Program ν ρ) {b₁ b₂ : Below ν ρ}
    (hb : BelowExtends b₁ b₂) {p : Host ν} {r : Outcome × Host ν}
    (h : exec e₁ code b₁ p = some r) : exec e₂ code b₂ p = some r := by
  induction code generalizing p with
  | finish _ => exact h
  | note _ _ ih => exact ih hb h
  | ask q _ ih => exact ih _ hb h
  | install m expects run priority moduleId _ _ ih => exact ih _ hb h
  | redirect m body _ _ ih =>
    unfold exec at h ⊢
    split at h
    · exact ih _ hb h
    · exact ih _ hb h
  | initClass className _ ih =>
    obtain ⟨a, ha, hr⟩ := Option.bind_eq_some_iff.mp h
    exact Option.bind_eq_some_iff.mpr ⟨a, ensureInit_mono he ha, ih _ hb hr⟩
  | invoke m c _ ih =>
    obtain ⟨a, ha, hr⟩ := Option.bind_eq_some_iff.mp h
    exact Option.bind_eq_some_iff.mpr ⟨a, invokeWith_mono he ha, ih _ hb hr⟩
  | callBase h' c _ ih =>
    obtain ⟨a, ha, hr⟩ := Option.bind_eq_some_iff.mp h
    exact Option.bind_eq_some_iff.mpr ⟨a, callBaseWith_mono he ha, ih _ hb hr⟩
  | proceed args _ ih =>
    obtain ⟨a, ha, hr⟩ := Option.bind_eq_some_iff.mp h
    exact Option.bind_eq_some_iff.mpr ⟨a, hb _ _ _ ha, ih _ trivial hr⟩

theorem descend_mono (he : Extends e₁ e₂) {m : MethodId} {base : Entry ν} {this : Option Value}
    (ls : List (Layer ν)) {args : List Value} {p : Host ν} {r : Outcome × Host ν}
    (h : descend e₁ m base this ls args p = some r) :
    descend e₂ m base this ls args p = some r := by
  induction ls generalizing args p r with
  | nil => exact he _ _ _ _ h
  | cons l rest ih =>
    refine exec_mono he _ ?_ h
    intro args p r hr
    exact ih hr

end Extending

/-! ## Depths -/

theorem enter_succ (depth : Nat) : Extends (ν := ν) (enter depth) (enter (depth + 1)) := by
  induction depth with
  | zero => intro x c p r h; cases h
  | succ depth ih =>
    intro x c p r h
    cases x with
    | body b => exact exec_mono (ρ := .plain) ih (b c) trivial h
    | dispatcher s =>
      unfold enter at h ⊢
      split at h
      · exact descend_mono ih _ h
      · cases h

/-- **What a run gives it gives at every greater depth.** -/
theorem enter_mono {d d' : Nat} (hd : d ≤ d') : Extends (ν := ν) (enter d) (enter d') := by
  induction hd with
  | refl => exact fun _ _ _ _ h => h
  | step _ ih => exact fun x c p r h => enter_succ _ x c p r (ih x c p r h)

/-- Calling a method comes to this, if calls may nest deep enough. -/
def Yields (p : Host ν) (m : MethodId) (c : Call) (r : Outcome × Host ν) : Prop :=
  ∃ depth, invokeWith (enter depth) m c p = some r

/-- A call yields one result at most. -/
theorem Yields.unique {p : Host ν} {m : MethodId} {c : Call} {r₁ r₂ : Outcome × Host ν}
    (h₁ : p.Yields m c r₁) (h₂ : p.Yields m c r₂) : r₁ = r₂ := by
  obtain ⟨d₁, h₁⟩ := h₁
  obtain ⟨d₂, h₂⟩ := h₂
  have h₁' := invokeWith_mono (enter_mono (Nat.le_max_left d₁ d₂)) h₁
  have h₂' := invokeWith_mono (enter_mono (Nat.le_max_right d₁ d₂)) h₂
  exact Option.some.inj (h₁'.symm.trans h₂')

end Interpose.Host
