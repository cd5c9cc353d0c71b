/-
Interpose.Proofs.Hook.CallThrough — how a call goes through a chain.

`descend` gives an outcome and a process. `walk` is the same descent with a
record of it: one frame for each time a layer was entered, and the call
that reached the method below the layers, if one did. Without the record a
walk is a descent (`descend_eq_walk`), so what is read off the record is
true of the descent.

A layer's code hands its call on once at most, because of its type.
`reach` runs it until it does so or ends, without knowing what is below,
and `exec_eq_reach` says that running it whole is that and then the rest.
This is what makes each frame one entry and no more.

What goes down and comes back is a `Crossing`. There is one into each
layer that is entered and one into the method itself, and together they
are what the record is about: what a layer handed on, if anything, is the
crossing after its own.

Main statement: `walk_exact`. Nothing is assumed of the layers, of the
method below them or of the calls that they make elsewhere.
-/
import Interpose.Host.Run

namespace Interpose.Host

variable {ν : Type}

/-! ## Up to handing on -/

/-- Where code stands when it ends or, if it is a layer's, hands its call on. -/
inductive Reach (ν : Type) : Role → Type
  | ended {ρ : Role} (r : Outcome) (p : Host ν) : Reach ν ρ
  | handsOn (args : List Value) (p : Host ν) (k : Outcome → Program ν .plain) : Reach ν .layer

/-- Runs code until it ends or hands its call on. -/
def reach (enter : Enter ν) : {ρ : Role} → Program ν ρ → Host ν → Option (Reach ν ρ)
  | _, .finish r, p => some (.ended r p)
  | _, .note n k, p => reach enter k (p.addNote n)
  | _, .ask q k, p =>
    let a := p.answer q
    reach enter (k a.1) a.2
  | _, .install m expects run priority moduleId k, p =>
    let a := p.install m { expects, run } priority moduleId
    reach enter (k a.1) a.2
  | _, .redirect m body k, p =>
    match p.redirect m (.body body) with
    | .error e => reach enter (k (.error e)) p
    | .ok p => reach enter (k (.ok ())) p
  | _, .initClass className k, p =>
    (ensureInit enter className p).bind fun a => reach enter (k a.1) a.2
  | _, .invoke m c k, p =>
    (invokeWith enter m c p).bind fun a => reach enter (k a.1) a.2
  | _, .callBase h c k, p =>
    (callBaseWith enter h c p).bind fun a => reach enter (k a.1) a.2
  | _, .proceed args k, p => some (.handsOn args p k)

/-- The rest of a run, from where the code stands. -/
def Reach.resume (enter : Enter ν) : {ρ : Role} → Reach ν ρ → Below ν ρ → Ran ν Outcome
  | _, .ended r p, _ => some (r, p)
  | _, .handsOn args p k, below => (below args p).bind fun a => exec enter (k a.1) () a.2

/-- **Code first gets to where it hands on, whatever is below it.** -/
theorem exec_eq_reach (enter : Enter ν) {ρ : Role} (code : Program ν ρ) (below : Below ν ρ)
    (p : Host ν) : exec enter code below p = (reach enter code p).bind (·.resume enter below) := by
  induction code generalizing p with
  | finish r => rfl
  | note n k ih => exact ih below _
  | ask q k ih => exact ih _ below _
  | install m expects run priority moduleId k _ ih => exact ih _ below _
  | redirect m body k _ ih =>
    unfold exec reach
    cases p.redirect m (.body body) with
    | error e => exact ih _ below _
    | ok q => exact ih _ below _
  | initClass className k ih =>
    rw [exec, reach, Option.bind_assoc]
    congr 1
    funext a
    exact ih _ below _
  | invoke m c k ih =>
    rw [exec, reach, Option.bind_assoc]
    congr 1
    funext a
    exact ih _ below _
  | callBase h c k ih =>
    rw [exec, reach, Option.bind_assoc]
    congr 1
    funext a
    exact ih _ below _
  | proceed args k _ => rfl

/-! ## Walks -/

/-- What goes into a layer, or into the method below the layers, and what comes back. -/
structure Crossing (ν : Type) where
  args : List Value
  start : Host ν
  outcome : Outcome
  stop : Host ν

/-- One time that a layer was entered. -/
structure Frame (ν : Type) where
  layer : Layer ν
  view : ChainView
  own : Crossing ν
  /-- What it handed on, and what it got back for it. -/
  passed : Option (Crossing ν)

structure Walk (ν : Type) where
  /-- The layers that were entered, outermost first. -/
  frames : List (Frame ν)
  /-- The calls that reached the method below the layers. -/
  base : List (Crossing ν)
  /-- The whole descent. -/
  whole : Crossing ν

/-- All that went in, from the outside to the inside. -/
def Walk.crossings (w : Walk ν) : List (Crossing ν) := w.frames.map (·.own) ++ w.base

/-- What a layer sees of a call. -/
def viewOf (m : MethodId) (this : Option Value) (l : Layer ν) (args : List Value)
    (depthBelow : Nat) : ChainView :=
  { method := m, call := { this, args }, moduleId := l.moduleId, depthBelow }

/-- Walks a chain and records the way. -/
def walk (enter : Enter ν) (m : MethodId) (base : Entry ν) (this : Option Value) :
    List (Layer ν) → List Value → Host ν → Option (Walk ν)
  | [], args, p =>
    (enter base { this, args } p).map fun a =>
      let whole : Crossing ν := { args, start := p, outcome := a.1, stop := a.2 }
      { frames := [], base := [whole], whole }
  | l :: rest, args, p =>
    let view := viewOf m this l args rest.length
    (reach enter (l.hook.run view) p).bind fun
      | .ended r q =>
        let whole : Crossing ν := { args, start := p, outcome := r, stop := q }
        some { frames := [{ layer := l, view, own := whole, passed := none }], base := [], whole }
      | .handsOn args' q k =>
        (walk enter m base this rest args' q).bind fun w =>
          (exec enter (k w.whole.outcome) () w.whole.stop).map fun a =>
            let whole : Crossing ν := { args, start := p, outcome := a.1, stop := a.2 }
            { frames := { layer := l, view, own := whole, passed := some w.whole } :: w.frames
              base := w.base
              whole }

/-- A descent runs its first layer up to where it hands on, and then the rest. -/
theorem descend_cons (enter : Enter ν) (m : MethodId) (base : Entry ν) (this : Option Value)
    (l : Layer ν) (rest : List (Layer ν)) (args : List Value) (p : Host ν) :
    descend enter m base this (l :: rest) args p
      = (reach enter (l.hook.run (viewOf m this l args rest.length)) p).bind fun x =>
          x.resume enter (descend enter m base this rest) :=
  exec_eq_reach (ρ := .layer) enter _ (descend enter m base this rest) p

/-- **Without the record, a walk is a descent.** -/
theorem descend_eq_walk (enter : Enter ν) (m : MethodId) (base : Entry ν) (this : Option Value)
    (ls : List (Layer ν)) (args : List Value) (p : Host ν) :
    descend enter m base this ls args p
      = (walk enter m base this ls args p).map fun w => (w.whole.outcome, w.whole.stop) := by
  induction ls generalizing args p with
  | nil =>
    rw [descend, walk, Option.map_map]
    cases enter base { this, args } p <;> rfl
  | cons l rest ih =>
    rw [descend_cons, walk]
    dsimp only
    cases reach enter (l.hook.run (viewOf m this l args rest.length)) p with
    | none => rfl
    | some reached =>
      cases reached with
      | ended r q => rfl
      | handsOn args' q k =>
        rw [Option.bind_some, Option.bind_some]
        show (descend enter m base this rest args' q).bind
          (fun a => exec (ρ := .plain) enter (k a.1) () a.2) = _
        rw [ih args' q]
        dsimp only
        cases walk enter m base this rest args' q with
        | none => rfl
        | some w =>
          rw [Option.map_some, Option.bind_some, Option.bind_some, Option.map_map]
          cases exec (ρ := .plain) enter (k w.whole.outcome) () w.whole.stop <;> rfl

/-! ## What a record says -/

/-- The layer's own code did what the frame says: with a way down that
answers as recorded it ends as recorded, and where nothing was handed on
no way down makes a difference. -/
def Frame.Ran (enter : Enter ν) (f : Frame ν) : Prop :=
  match f.passed with
  | none => ∀ below : Below ν .layer,
      exec enter (f.layer.hook.run f.view) below f.own.start = some (f.own.outcome, f.own.stop)
  | some x => ∀ below : Below ν .layer,
      (below x.args x.start = some (x.outcome, x.stop) →
        exec enter (f.layer.hook.run f.view) below f.own.start
          = some (f.own.outcome, f.own.stop)) ∧
      (below x.args x.start = none →
        exec enter (f.layer.hook.run f.view) below f.own.start = none)

/-- A record of a dispatch of `m` through the layers `ls`, exact in every respect. -/
structure Walk.Exact (w : Walk ν) (enter : Enter ν) (m : MethodId) (base : Entry ν)
    (this : Option Value) (ls : List (Layer ν)) (args : List Value) (p : Host ν) : Prop where
  args_eq : w.whole.args = args
  start_eq : w.whole.start = p
  /-- The first thing entered is the dispatch itself. -/
  outermost : w.crossings.head? = some w.whole
  /-- The layers entered are the first ones of the chain, in its order, each once. -/
  entered : w.frames.map (·.layer) <+: ls
  /-- Each saw the arguments that went into it, the one receiver, and what is below it. -/
  views : ∀ i f, w.frames[i]? = some f →
    f.view = viewOf m this f.layer f.own.args (ls.length - 1 - i)
  /-- What it handed on is what went in next, and what it got is what came back. -/
  passed : ∀ i f, w.frames[i]? = some f → f.passed = w.crossings[i + 1]?
  ran : ∀ f ∈ w.frames, f.Ran enter
  base_once : w.base.length ≤ 1
  base_iff : w.base.length = 1 ↔
    w.frames.length = ls.length ∧ ∀ f ∈ w.frames, f.passed.isSome
  base_ran : ∀ x ∈ w.base,
    enter base { this, args := x.args } x.start = some (x.outcome, x.stop)

section Exactness

variable {enter : Enter ν} {m : MethodId} {base : Entry ν} {this : Option Value}

/-- With no layers, the method itself is called. -/
theorem exact_base {args : List Value} {p : Host ν} {a : Outcome × Host ν}
    (h : enter base { this, args } p = some a) :
    Walk.Exact { frames := [], base := [⟨args, p, a.1, a.2⟩], whole := ⟨args, p, a.1, a.2⟩ }
      enter m base this [] args p where
  args_eq := rfl
  start_eq := rfl
  outermost := rfl
  entered := List.nil_prefix
  views := fun i f hf => by simp at hf
  passed := fun i f hf => by simp at hf
  ran := fun f hf => absurd hf List.not_mem_nil
  base_once := Nat.le_refl 1
  base_iff := ⟨fun _ => ⟨rfl, fun f hf => absurd hf List.not_mem_nil⟩, fun _ => rfl⟩
  base_ran := by
    intro x hx
    rw [List.mem_singleton.mp hx]
    exact h

/-- A layer that ends by itself keeps the call from all that is below it. -/
theorem exact_ended {l : Layer ν} {rest : List (Layer ν)} {args : List Value} {p q : Host ν}
    {r : Outcome}
    (h : reach enter (l.hook.run (viewOf m this l args rest.length)) p = some (.ended r q)) :
    Walk.Exact
      { frames := [{ layer := l, view := viewOf m this l args rest.length
                     own := ⟨args, p, r, q⟩, passed := none }]
        base := [], whole := ⟨args, p, r, q⟩ }
      enter m base this (l :: rest) args p where
  args_eq := rfl
  start_eq := rfl
  outermost := rfl
  entered := by
    show [l] <+: l :: rest
    exact List.cons_prefix_cons.mpr ⟨rfl, List.nil_prefix⟩
  views := by
    intro i f hf
    cases i with
    | zero => cases hf; rfl
    | succ i => simp at hf
  passed := by
    intro i f hf
    cases i with
    | zero => cases hf; rfl
    | succ i => simp at hf
  ran := by
    intro f hf
    rw [List.mem_singleton.mp hf]
    intro below
    show exec enter (l.hook.run (viewOf m this l args rest.length)) below p = _
    rw [exec_eq_reach, h]
    rfl
  base_once := Nat.zero_le 1
  base_iff := by
    constructor
    · intro hzero
      exact absurd hzero Nat.zero_ne_one
    · rintro ⟨_, hall⟩
      have := hall _ List.mem_cons_self
      exact absurd this Bool.false_ne_true
  base_ran := fun x hx => absurd hx List.not_mem_nil

/-- A layer that hands its call on is one frame on top of the walk below it. -/
theorem exact_handsOn {l : Layer ν} {rest : List (Layer ν)} {args args' : List Value}
    {p q : Host ν} {k : Outcome → Program ν .plain} {w : Walk ν} {a : Outcome × Host ν}
    (h : reach enter (l.hook.run (viewOf m this l args rest.length)) p = some (.handsOn args' q k))
    (hw : w.Exact enter m base this rest args' q)
    (ha : exec (ρ := .plain) enter (k w.whole.outcome) () w.whole.stop = some a) :
    Walk.Exact
      { frames := { layer := l, view := viewOf m this l args rest.length
                    own := ⟨args, p, a.1, a.2⟩, passed := some w.whole } :: w.frames
        base := w.base, whole := ⟨args, p, a.1, a.2⟩ }
      enter m base this (l :: rest) args p where
  args_eq := rfl
  start_eq := rfl
  outermost := rfl
  entered := by
    rw [List.map_cons]
    exact List.cons_prefix_cons.mpr ⟨rfl, hw.entered⟩
  views := by
    intro i f hf
    cases i with
    | zero => cases hf; rfl
    | succ i =>
      have hview := hw.views i f hf
      have hlen : (l :: rest).length - 1 - (i + 1) = rest.length - 1 - i := by
        rw [List.length_cons]
        omega
      rw [hlen]
      exact hview
  passed := by
    intro i f hf
    cases i with
    | zero =>
      cases hf
      have hhead := hw.outermost
      rw [List.head?_eq_getElem?] at hhead
      exact hhead.symm
    | succ i => exact hw.passed i f hf
  ran := by
    intro f hf
    rcases List.mem_cons.mp hf with rfl | hf
    · intro below
      rw [exec_eq_reach, h, hw.args_eq, hw.start_eq]
      constructor
      · intro hback
        show (below args' q).bind (fun a => exec (ρ := .plain) enter (k a.1) () a.2) = _
        rw [hback]
        exact ha
      · intro hnone
        show (below args' q).bind (fun a => exec (ρ := .plain) enter (k a.1) () a.2) = _
        rw [hnone]
        rfl
    · exact hw.ran f hf
  base_once := hw.base_once
  base_iff := by
    rw [hw.base_iff, List.length_cons, List.length_cons, Nat.add_right_cancel_iff]
    refine and_congr_right fun _ => ?_
    rw [List.forall_mem_cons]
    exact ⟨fun hall => ⟨rfl, hall⟩, fun hall => hall.2⟩
  base_ran := hw.base_ran

/-- Every record is exact. -/
theorem exact_of_walk {ls : List (Layer ν)} {args : List Value} {p : Host ν} {w : Walk ν}
    (h : walk enter m base this ls args p = some w) : w.Exact enter m base this ls args p := by
  induction ls generalizing args p w with
  | nil =>
    obtain ⟨a, ha, rfl⟩ := Option.map_eq_some_iff.mp h
    exact exact_base ha
  | cons l rest ih =>
    obtain ⟨x, hx, h⟩ := Option.bind_eq_some_iff.mp h
    cases x with
    | ended r q =>
      cases h
      exact exact_ended hx
    | handsOn args' q k =>
      obtain ⟨w', hw', h⟩ := Option.bind_eq_some_iff.mp h
      obtain ⟨a, ha, rfl⟩ := Option.map_eq_some_iff.mp h
      exact exact_handsOn hx (ih hw') ha

end Exactness

/-! ## Coming back -/

/-- Every entry that is run comes back. -/
def Total (enter : Enter ν) : Prop := ∀ x c p, (enter x c p).isSome = true

section Totality

variable {enter : Enter ν}

theorem ensureInit_isSome (he : Total enter) (className : String) (p : Host ν) :
    (ensureInit enter className p).isSome = true := by
  unfold ensureInit
  split
  · rfl
  · dsimp only
    split
    · rfl
    · rw [Option.isSome_map]
      exact he _ _ _

theorem invokeWith_isSome (he : Total enter) (m : MethodId) (c : Call) (p : Host ν) :
    (invokeWith enter m c p).isSome = true := by
  unfold invokeWith
  split
  · rfl
  · rename_i info _
    obtain ⟨⟨a, q⟩, ha⟩ := Option.isSome_iff_exists.mp (ensureInit_isSome he info.className p)
    rw [ha, Option.bind_some]
    cases a with
    | error t => rfl
    | ok _ =>
      dsimp only
      split
      · rfl
      · exact he _ _ _

theorem callBaseWith_isSome (he : Total enter) (h : HookHandle) (c : Call) (p : Host ν) :
    (callBaseWith enter h c p).isSome = true := by
  unfold callBaseWith
  split
  · exact he _ _ _
  · rfl

/-- Code that is answered gets to its end or to where it hands on. -/
theorem reach_isSome (he : Total enter) {ρ : Role} (code : Program ν ρ) (p : Host ν) :
    (reach enter code p).isSome = true := by
  induction code generalizing p with
  | finish r => rfl
  | note n k ih => exact ih _
  | ask q k ih => exact ih _ _
  | install m expects run priority moduleId k _ ih => exact ih _ _
  | redirect m body k _ ih =>
    unfold reach
    split
    · exact ih _ _
    · exact ih _ _
  | initClass className k ih =>
    obtain ⟨a, ha⟩ := Option.isSome_iff_exists.mp (ensureInit_isSome he className p)
    rw [reach, ha]
    exact ih _ _
  | invoke m c k ih =>
    obtain ⟨a, ha⟩ := Option.isSome_iff_exists.mp (invokeWith_isSome he m c p)
    rw [reach, ha]
    exact ih _ _
  | callBase h c k ih =>
    obtain ⟨a, ha⟩ := Option.isSome_iff_exists.mp (callBaseWith_isSome he h c p)
    rw [reach, ha]
    exact ih _ _
  | proceed args k _ => rfl

/-- Plain code that is answered comes to its end. -/
theorem exec_plain_isSome (he : Total enter) (code : Program ν .plain) (p : Host ν) :
    (exec enter code () p).isSome = true := by
  obtain ⟨x, hx⟩ := Option.isSome_iff_exists.mp (reach_isSome he code p)
  rw [exec_eq_reach (ρ := .plain) enter code () p, hx]
  cases x with
  | ended r q => rfl

theorem walk_isSome (he : Total enter) (m : MethodId) (base : Entry ν) (this : Option Value)
    (ls : List (Layer ν)) (args : List Value) (p : Host ν) :
    (walk enter m base this ls args p).isSome = true := by
  induction ls generalizing args p with
  | nil =>
    rw [walk, Option.isSome_map]
    exact he _ _ _
  | cons l rest ih =>
    obtain ⟨x, hx⟩ := Option.isSome_iff_exists.mp
      (reach_isSome he (l.hook.run (viewOf m this l args rest.length)) p)
    rw [walk, hx, Option.bind_some]
    cases x with
    | ended r q => rfl
    | handsOn args' q k =>
      obtain ⟨w, hw⟩ := Option.isSome_iff_exists.mp (ih args' q)
      dsimp only
      rw [hw, Option.bind_some, Option.isSome_map]
      exact exec_plain_isSome he _ _

end Totality

/-! ## Dispatches -/

/-- Running the dispatcher of a slot is walking the slot's chain. -/
theorem enter_dispatcher_eq_walk (depth : Nat) {s : Nat} {slot : Slot ν} (c : Call) {p : Host ν}
    (hslot : p.slots[s]? = some slot) :
    Host.enter (depth + 1) (.dispatcher s) c p
      = (walk (Host.enter depth) slot.method slot.base c.this slot.layers c.args p).map
          fun w => (w.whole.outcome, w.whole.stop) := by
  rw [Host.enter, hslot]
  exact descend_eq_walk _ _ _ _ _ _ _

/-- **A dispatch goes through its chain exactly once from the top**: it is a
walk whose record is exact, for whatever layers, method and other code; and
there is such a walk as soon as what they call comes back. -/
theorem walk_exact (enter : Enter ν) (m : MethodId) (base : Entry ν) (this : Option Value)
    (ls : List (Layer ν)) (args : List Value) (p : Host ν) :
    descend enter m base this ls args p
      = (walk enter m base this ls args p).map (fun w => (w.whole.outcome, w.whole.stop)) ∧
    (∀ w, walk enter m base this ls args p = some w → w.Exact enter m base this ls args p) ∧
    (Total enter → (walk enter m base this ls args p).isSome = true) :=
  ⟨descend_eq_walk enter m base this ls args p, fun _ h => exact_of_walk h,
    fun he => walk_isSome he m base this ls args p⟩

/-- A layer that hands on fewer arguments than it was given, on top of one
that answers with an exception, which comes back as it was thrown. -/
theorem walk_exact_suppressed :
    let none' : Enter Unit := fun _ _ p => some (.ok .null, p)
    let thrown : Outcome := .error { className := "E", message := "no" }
    let layer (n : Nat) (run : ChainView → Program Unit .layer) : Layer Unit :=
      { handle := ⟨n⟩, method := ⟨1⟩, moduleId := "a", priority := 0, order := n, hook := { run } }
    let ls := [layer 1 fun v => .proceed (v.call.args.drop 1) .finish,
      layer 2 fun _ => .finish thrown]
    ∃ w, walk none' ⟨1⟩ (.dispatcher 0) none ls [.null] {} = some w ∧
      w.Exact none' ⟨1⟩ (.dispatcher 0) none ls [.null] {} ∧
      (w.frames.map fun f => f.view.call.args) = [[.null], []] ∧
      w.base.length = 0 ∧ w.whole.outcome = thrown := by
  intro none' thrown layer ls
  have h := walk_exact none' ⟨1⟩ (.dispatcher 0) none ls [.null] {}
  obtain ⟨w, hw⟩ := Option.isSome_iff_exists.mp (h.2.2 fun _ _ _ => rfl)
  have hexact := h.2.1 w hw
  cases hw
  exact ⟨_, rfl, hexact, rfl, rfl, rfl⟩

end Interpose.Host
