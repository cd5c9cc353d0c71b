/-
Interpose.Proofs.Host.Nesting — how deep initialisers can nest.

Where nothing is hooked and methods make no calls of their own, calls nest
only in initialisers, which may call whatever they like and so run one
another. But an initialiser that has begun makes its class count as
initialised until it ends, and no class is begun a second time below it. So
each of them stands on the way down once at most, and the number of those
that have not begun bounds how deep a call can go (`unstarted_setInit_lt`).
What an initialiser leaves when it fails is not begun any more, but the
way down from there is over by then (`CameBack`).

Main statement: `exec_reaches`.
-/
import Interpose.Proofs.Hook.Running

namespace Interpose

variable {ν : Type}

/-! ## Code without calls -/

/-- The program calls nothing, and changes nothing about what calls do. -/
def Program.Calm : {ρ : Role} → Program ν ρ → Prop
  | _, .finish _ => True
  | _, .note _ k => k.Calm
  | _, .ask _ k => ∀ a, (k a).Calm
  | _, _ => False

/-- Code that may make calls, but leaves all entries and hooks as they are. -/
def Permit.calls : Permit := { install := False, ask := fun _ => True, redirect := fun _ => False }

namespace Host

/-- Nothing is hooked, methods make no calls, and initialisers nothing but calls. -/
structure Inert (p : Host ν) : Prop where
  slots : p.slots = []
  table : p.table = {}
  entries : ∀ m x, p.method? m = some x → ∃ b, x.entry = .body b ∧ ∀ c, (b c).Calm
  inits : ∀ c init, p.classInits.lookup c = some init → init.Within .calls

namespace Inert

variable {p q : Host ν}

theorem same (h : p.Inert)
    (hentries : ∀ m, (q.method? m).map (·.entry) = (p.method? m).map (·.entry))
    (hslots : q.slots = p.slots) (htable : q.table = p.table)
    (hinits : q.classInits = p.classInits) : q.Inert where
  slots := hslots.trans h.slots
  table := htable.trans h.table
  entries := by
    intro m x hx
    have hentry := hentries m
    rw [hx, Option.map_some] at hentry
    obtain ⟨y, hy, heq⟩ := Option.map_eq_some_iff.mp hentry.symm
    obtain ⟨b, hb, hcalm⟩ := h.entries m y hy
    exact ⟨b, heq.symm.trans hb, hcalm⟩
  inits := fun c init hc => h.inits c init (hinits ▸ hc)

theorem setInit (h : p.Inert) (className : String) (s : Option InitState) :
    (p.setInit className s).Inert :=
  h.same (fun _ => rfl) rfl rfl rfl

/-- There is nothing to remove. -/
theorem remove_eq (h : p.Inert) (g : HookHandle) : (p.remove g).2 = p := by
  have hunknown : p.table.methodOf? g = none := by rw [h.table]; rfl
  rw [Host.remove, hunknown]

theorem answer (h : p.Inert) (q : Query) : (p.answer q).2.Inert := by
  cases q with
  | remove g =>
    rw [show (p.answer (.remove g)).2 = p from h.remove_eq g]
    exact h
  | removeModule moduleId =>
    have hnone : p.ownedBy moduleId = [] := by rw [ownedBy, h.table]; rfl
    rw [show (p.answer (.removeModule moduleId)).2 = (p.removeAll (p.ownedBy moduleId)).2 from rfl,
      hnone]
    exact h
  | setForm m form => exact h.same (fun a => entry_setForm p m a form) rfl rfl rfl
  | deoptimize m =>
    have hidle := p.idle_deoptimize m
    exact h.same hidle.entries hidle.slots hidle.table hidle.others.classInits
  | enterApp => exact h.same (fun _ => rfl) rfl rfl rfl
  | count c => exact h.same (fun _ => rfl) rfl rfl rfl
  | look => exact h

theorem base?_eq_none (h : p.Inert) (g : HookHandle) : p.base? g = none := by
  rw [base?, h.table]
  rfl

end Inert

/-! ## Classes that have not begun -/

/-- How many initialisers neither run nor have succeeded. -/
def unstarted (p : Host ν) : Nat := p.classInits.countP fun e => (p.initState.lookup e.1).isNone

/-- What is true of a process once a call has come back: the classes that counted as
initialised still do. -/
structure CameBack (p q : Host ν) : Prop where
  classInits : q.classInits = p.classInits
  ready : ∀ c, (p.initState.lookup c).isSome = true → (q.initState.lookup c).isSome = true

theorem CameBack.refl (p : Host ν) : CameBack p p := ⟨rfl, fun _ h => h⟩

theorem CameBack.trans {p q r : Host ν} (h : CameBack p q) (h' : CameBack q r) : CameBack p r :=
  ⟨h'.classInits.trans h.classInits, fun c hc => h'.ready c (h.ready c hc)⟩

theorem CameBack.of_eq {p q : Host ν} (hinits : q.classInits = p.classInits)
    (hstates : q.initState = p.initState) : CameBack p q :=
  ⟨hinits, fun c hc => by rwa [hstates]⟩

theorem CameBack.unstarted_le {p q : Host ν} (h : CameBack p q) : q.unstarted ≤ p.unstarted := by
  rw [unstarted, unstarted, h.classInits]
  refine List.countP_mono_left fun e _ he => ?_
  rw [Option.isNone_iff_eq_none, ← Option.not_isSome_iff_eq_none] at he ⊢
  exact fun hready => he (h.ready e.1 hready)

theorem cameBack_answer (p : Host ν) (q : Query) : CameBack p (p.answer q).2 := by
  have hhooks : HooksOnly p (p.answer q).2 ∨
      ((p.answer q).2.classInits = p.classInits ∧ (p.answer q).2.initState = p.initState) := by
    cases q with
    | remove g => exact .inl (p.hooksOnly_remove g)
    | removeModule moduleId => exact .inl (p.hooksOnly_removeAll _)
    | deoptimize m => exact .inl (p.idle_deoptimize m).others
    | setForm | enterApp | count | look => exact .inr ⟨rfl, rfl⟩
  rcases hhooks with h | ⟨hinits, hstates⟩
  · exact .of_eq h.classInits h.initState
  · exact .of_eq hinits hstates

/-- **A class that begins is one less that has not begun.** -/
theorem unstarted_setInit_lt {p : Host ν} {c : String} {init : Program ν .plain}
    (hinit : p.classInits.lookup c = some init) (hfresh : p.initState.lookup c = none) :
    (p.setInit c (some .running)).unstarted < p.unstarted := by
  obtain ⟨l₁, l₂, hsplit, -⟩ := List.lookup_eq_some_iff.mp hinit
  have hothers : ∀ l : List (String × Program ν .plain),
      l.countP (fun e => ((p.setInit c (some .running)).initState.lookup e.1).isNone)
        ≤ l.countP fun e => (p.initState.lookup e.1).isNone := by
    refine fun l => List.countP_mono_left fun e _ he => ?_
    rw [lookup_setInit] at he
    split at he
    next => cases he
    next => exact he
  show p.classInits.countP _ < p.classInits.countP _
  have h₁ := hothers l₁
  have h₂ := hothers l₂
  rw [hsplit, List.countP_append, List.countP_append, List.countP_cons_of_neg,
    List.countP_cons_of_pos]
  · omega
  · rw [hfresh]
    rfl
  · rw [lookup_setInit, if_pos rfl]
    simp

/-! ## Runs that come to an end -/

/-- A run comes to a result, and leaves a process of the same kind. -/
def Reaches {α : Type} (p : Host ν) (ran : Ran ν α) : Prop :=
  ∃ r, ran = some r ∧ r.2.Inert ∧ CameBack p r.2

theorem reaches_some {α : Type} {p q : Host ν} (a : α) (hq : q.Inert) (h : CameBack p q) :
    Reaches p (some (a, q)) :=
  ⟨_, rfl, hq, h⟩

theorem Reaches.bind {α β : Type} {p : Host ν} {x : Ran ν α} {f : α × Host ν → Ran ν β}
    (hx : Reaches p x) (hf : ∀ a q, q.Inert → CameBack p q → Reaches q (f (a, q))) :
    Reaches p (x.bind f) := by
  obtain ⟨⟨a, q⟩, rfl, hq, hpq⟩ := hx
  obtain ⟨r, hr, hinert, hback⟩ := hf a q hq hpq
  exact ⟨r, hr, hinert, hpq.trans hback⟩

theorem Reaches.of_cameBack {α : Type} {p q : Host ν} {x : Ran ν α} (h : Reaches q x)
    (hpq : CameBack p q) : Reaches p x := by
  obtain ⟨r, hr, hinert, hback⟩ := h
  exact ⟨r, hr, hinert, hpq.trans hback⟩

/-- Code without calls comes to an end, whoever would run its calls. -/
theorem exec_calm (e : Enter ν) {ρ : Role} (code : Program ν ρ) (hcalm : code.Calm)
    (below : Below ν ρ) {p : Host ν} (hp : p.Inert) : Reaches p (exec e code below p) := by
  induction code generalizing p with
  | finish r => exact reaches_some r hp (.refl p)
  | note n k ih =>
    exact (ih (p := p.addNote n) hcalm below (hp.same (fun _ => rfl) rfl rfl rfl)).of_cameBack
      (.of_eq rfl rfl)
  | ask q k ih => exact (ih _ (hcalm _) below (hp.answer q)).of_cameBack (p.cameBack_answer q)
  | install _ _ _ _ _ _ | redirect _ _ _ | initClass _ _ | invoke _ _ _ | callBase _ _ _
    | proceed _ _ => exact hcalm.elim

section Depth

variable {d : Nat}

/-- Initialisers come to an end if they may nest as deep as there are any left. -/
def InitsReach (ν : Type) (d : Nat) : Prop :=
  ∀ (p : Host ν) (code : Program ν .plain), p.Inert → code.Within .calls → p.unstarted < d →
    Reaches p (exec (enter d) code () p)

theorem ensureInit_reaches (hd : InitsReach ν d) {p : Host ν} (hp : p.Inert)
    (hdepth : p.unstarted ≤ d) (c : String) : Reaches p (ensureInit (enter (d + 1)) c p) := by
  rw [ensureInit]
  split
  next => exact reaches_some _ hp (.refl p)
  next hfresh =>
  rw [Option.not_isSome_iff_eq_none] at hfresh
  have hset : ∀ (q : Host ν) (s : Option InitState), CameBack (p.setInit c (some .running)) q →
      CameBack p (q.setInit c s) := by
    refine fun q s hback => ⟨hback.classInits, fun a ha => ?_⟩
    have hne : a ≠ c := by
      rintro rfl
      rw [hfresh] at ha
      cases ha
    rw [lookup_setInit, if_neg hne]
    refine hback.ready a ?_
    rwa [lookup_setInit, if_neg hne]
  dsimp only
  split
  next => exact reaches_some _ ((hp.setInit c _).setInit c _) (hset _ _ (.refl _))
  next init hinit =>
    have hlt := unstarted_setInit_lt (p := p) hinit hfresh
    obtain ⟨⟨o, q⟩, hran, hq, hback⟩ := hd _ init (hp.setInit c (some .running))
      (hp.inits c init hinit) (by omega)
    have hran : enter (d + 1) (.body fun _ => init) {} (p.setInit c (some .running))
        = some (o, q) := hran
    rw [hran]
    cases o with
    | ok _ => exact reaches_some _ (hq.setInit c _) (hset q _ hback)
    | error t => exact reaches_some _ (hq.setInit c _) (hset q _ hback)

theorem invokeWith_reaches (hd : InitsReach ν d) {p : Host ν} (hp : p.Inert)
    (hdepth : p.unstarted ≤ d) (m : MethodId) (c : Call) :
    Reaches p (invokeWith (enter (d + 1)) m c p) := by
  rw [invokeWith]
  split
  next => exact reaches_some _ hp (.refl p)
  next info _ =>
    refine (ensureInit_reaches hd hp hdepth info.className).bind fun a q hq hback => ?_
    cases a with
    | error t => exact reaches_some _ hq (.refl q)
    | ok _ =>
      dsimp only
      split
      next => exact reaches_some _ hq (.refl q)
      next x hx =>
        obtain ⟨b, hb, hcalm⟩ := hq.entries m x hx
        rw [hb]
        exact exec_calm (enter d) (b c) (hcalm c) () hq

/-- Plain code comes to an end if the initialisers do that it may begin. -/
theorem exec_reaches_of (hd : InitsReach ν d) {ρ : Role} (code : Program ν ρ) (hρ : ρ = .plain)
    (hcode : code.Within .calls) (below : Below ν ρ) {p : Host ν} (hp : p.Inert)
    (hdepth : p.unstarted ≤ d) : Reaches p (exec (enter (d + 1)) code below p) := by
  induction code generalizing p with
  | finish r => exact reaches_some r hp (.refl p)
  | note n k ih =>
    exact (ih (p := p.addNote n) hρ hcode below (hp.same (fun _ => rfl) rfl rfl rfl) hdepth).of_cameBack
      (.of_eq rfl rfl)
  | ask q k ih =>
    have hback := p.cameBack_answer q
    exact (ih _ hρ (hcode.2 _) below (hp.answer q)
      (Nat.le_trans hback.unstarted_le hdepth)).of_cameBack hback
  | install | redirect => exact hcode.1.elim
  | initClass c k ih =>
    refine (ensureInit_reaches hd hp hdepth c).bind fun a q hq hback => ?_
    exact ih a hρ (hcode a) below hq (Nat.le_trans hback.unstarted_le hdepth)
  | invoke m c k ih =>
    refine (invokeWith_reaches hd hp hdepth m c).bind fun a q hq hback => ?_
    exact ih a hρ (hcode a) below hq (Nat.le_trans hback.unstarted_le hdepth)
  | callBase g c k ih =>
    have hcall : callBaseWith (enter (d + 1)) g c p = some (.error {
        className := "IllegalStateException"
        message := (HookError.unknownHandle g).message }, p) := by
      rw [callBaseWith, hp.base?_eq_none]
    rw [exec, hcall, Option.bind_some]
    exact ih _ hρ (hcode _) below hp hdepth
  | proceed => cases hρ

end Depth

/-- **Calls come back, if they may nest once more than there are initialisers left.** -/
theorem exec_reaches (d : Nat) : InitsReach ν d := by
  induction d with
  | zero => exact fun p code _ _ hdepth => absurd hdepth (Nat.not_lt_zero _)
  | succ d hd =>
    exact fun p code hp hcode hdepth =>
      exec_reaches_of hd code rfl hcode () hp (Nat.le_of_lt_succ hdepth)

end Host

end Interpose
