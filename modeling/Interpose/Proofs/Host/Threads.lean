/-
Interpose.Proofs.Host.Threads — code that runs step by step, beside other code.

`exec` runs a program in one go. In a process there are threads, and
between any two steps of one the others take steps of theirs. So a thread
has a state of its own here: what it does next, and what it goes on with
after that. A call that comes to a dispatcher reads the layers off the slot
once (`Visit`) and carries with it those that it has yet to reach; a layer
that is run holds the visit, and gives it up when it hands the call on.

A step does one thing to the process: it reads an entry or a slot, or it
makes one request, of which removing a module is several, one for each
layer. Threads are told apart by their place in a list, and a schedule says
whose turn it is; it is any function, so that what holds for every schedule
holds for all ways in which steps can fall. A thread that finds a class being
initialised goes on at once, be it initialised by a call of its own or by
another thread, which in a process would have to wait: that is to take its
turns later, and no order of steps is left out.

A thread that is left alone does what `exec` does.

Main statement: `thread_alone`.
-/
import Interpose.Host.Run

namespace Interpose

variable {ν : Type}

/-! ## Threads -/

/-- A call that has come to a dispatcher: the step in which it came, what it
read off the slot then, and the layers that it has yet to reach. -/
structure Visit (ν : Type) where
  since : Nat
  method : MethodId
  base : Entry ν
  this : Option Value
  below : List (Layer ν)

/-- Where a program stands: a layer in the call that reached it. -/
def Place (ν : Type) : Role → Type
  | .plain => Unit
  | .layer => Visit ν

/-- What a class is initialised for. -/
inductive Purpose (ν : Type) where
  | resume {ρ : Role} (k : Except Throwable Unit → Program ν ρ) (place : Place ν ρ)
  | call (m : MethodId) (c : Call)

/-- What a thread does next. -/
inductive Now (ν : Type) where
  | code {ρ : Role} (code : Program ν ρ) (place : Place ν ρ)
  | call (m : MethodId) (c : Call)
  /-- Reads a method's entry, its class being initialised. -/
  | fetch (m : MethodId) (c : Call)
  | enter (e : Entry ν) (c : Call)
  /-- Hands a call on to the next layer, or to what is below them all. -/
  | walk (v : Visit ν) (args : List Value)
  /-- Removes what is left of a module's layers, of which so many are gone. -/
  | drop {ρ : Role} (hs : List HookHandle) (gone : Nat) (k : Nat → Program ν ρ)
      (place : Place ν ρ)
  | done (r : Outcome)

/-- What goes on when the code above it is done. -/
inductive Awaiting (ν : Type) where
  | resume {ρ : Role} (k : Outcome → Program ν ρ) (place : Place ν ρ)
  | init (className : String) (purpose : Purpose ν)

structure Thread (ν : Type) where
  now : Now ν
  stack : List (Awaiting ν) := []

/-- What can be seen of a step: that a call comes to a dispatcher, and what it
finds there; that the call which came in some step reaches a layer, or what
is below all layers. -/
inductive Sight (ν : Type) where
  | quiet
  | entered (m : MethodId) (base : Entry ν) (chain : List (Layer ν))
  | visited (call : Nat) (l : Layer ν)
  | reached (call : Nat) (e : Entry ν)

/-- What a thread does when a class has been initialised, or could not be. -/
def Purpose.next : Purpose ν → Except Throwable Unit → Now ν
  | .resume k place, r => .code (k r) place
  | .call m c, .ok () => .fetch m c
  | .call _ _, .error t => .done (.error t)

namespace Thread

/-- A thread that begins with a piece of code. -/
def start (code : Program ν .plain) : Thread ν where
  now := .code (ρ := .plain) code ()

/-! ## Steps -/

/-- Begins to initialise a class, where that has to be done. -/
def begin (className : String) (purpose : Purpose ν) (stack : List (Awaiting ν)) (p : Host ν) :
    Thread ν × Host ν :=
  if (p.initState.lookup className).isSome then ({ now := purpose.next (.ok ()), stack }, p)
  else
    let p := p.setInit className (some .running)
    match p.classInits.lookup className with
    | none => ({ now := purpose.next (.ok ()), stack }, p.setInit className (some .done))
    | some init =>
      ({ now := .enter (.body fun _ => init) {}, stack := .init className purpose :: stack }, p)

/-- One request of a program. -/
def request (stack : List (Awaiting ν)) :
    {ρ : Role} → Program ν ρ → Place ν ρ → Host ν → Thread ν × Host ν
  | _, .finish r, _, p => ({ now := .done r, stack }, p)
  | _, .note x k, place, p => ({ now := .code k place, stack }, p.addNote x)
  | _, .ask (.removeModule id) k, place, p =>
    ({ now := .drop (p.ownedBy id) 0 k place, stack }, p)
  | _, .ask q k, place, p =>
    let a := p.answer q
    ({ now := .code (k a.1) place, stack }, a.2)
  | _, .install m expects run priority moduleId k, place, p =>
    let a := p.install m { expects, run } priority moduleId
    ({ now := .code (k a.1) place, stack }, a.2)
  | _, .redirect m body k, place, p =>
    match p.redirect m (.body body) with
    | .error e => ({ now := .code (k (.error e)) place, stack }, p)
    | .ok p => ({ now := .code (k (.ok ())) place, stack }, p)
  | _, .initClass className k, place, p => begin className (.resume k place) stack p
  | _, .invoke m c k, place, p => ({ now := .call m c, stack := .resume k place :: stack }, p)
  | _, .callBase h c k, place, p =>
    match p.base? h with
    | some base => ({ now := .enter base c, stack := .resume k place :: stack }, p)
    | none => ({ now := .code (k (.error {
        className := "IllegalStateException"
        message := (HookError.unknownHandle h).message })) place, stack }, p)
  | _, .proceed args k, place, p =>
    ({ now := .walk place args, stack := .resume (ρ := .plain) k () :: stack }, p)

/-- What goes on when code is done. -/
def back (r : Outcome) : List (Awaiting ν) → Host ν → Option (Thread ν × Host ν)
  | [], _ => none
  | .resume k place :: stack, p => some ({ now := .code (k r) place, stack }, p)
  | .init className purpose :: stack, p =>
    match r with
    | .ok _ =>
      some ({ now := purpose.next (.ok ()), stack }, p.setInit className (some .done))
    | .error t => some ({ now := purpose.next (.error t), stack }, p.setInit className none)

/-- A call that there is no method for. -/
def lost (m : MethodId) : Now ν :=
  .done (.error { className := "NoSuchMethodError", message := m.text })

/-- The step that a thread takes next, if it has any left, and what can be seen
of it. A call that comes to a dispatcher is known by the step, `n`. -/
def step (n : Nat) : Thread ν → Host ν → Option (Sight ν × Thread ν × Host ν)
  | ⟨.code code place, stack⟩, p => some (.quiet, request stack code place p)
  | ⟨.call m c, stack⟩, p =>
    match p.info? m with
    | none => some (.quiet, ⟨lost m, stack⟩, p)
    | some info => some (.quiet, begin info.className (.call m c) stack p)
  | ⟨.fetch m c, stack⟩, p =>
    match p.method? m with
    | none => some (.quiet, ⟨lost m, stack⟩, p)
    | some x => some (.quiet, ⟨.enter x.entry c, stack⟩, p)
  | ⟨.enter (.body b) c, stack⟩, p => some (.quiet, ⟨.code (ρ := .plain) (b c) (), stack⟩, p)
  | ⟨.enter (.dispatcher s) c, stack⟩, p =>
    match p.slots[s]? with
    | none => none
    | some slot =>
      some (.entered slot.method slot.base slot.layers,
        ⟨.walk ⟨n, slot.method, slot.base, c.this, slot.layers⟩ c.args, stack⟩, p)
  | ⟨.walk ⟨c, _, base, this, []⟩ args, stack⟩, p =>
    some (.reached c base, ⟨.enter base { this, args }, stack⟩, p)
  | ⟨.walk ⟨c, m, base, this, l :: rest⟩ args, stack⟩, p =>
    let code := l.hook.run {
      method := m, call := { this, args }, moduleId := l.moduleId, depthBelow := rest.length }
    let place : Place ν .layer := ⟨c, m, base, this, rest⟩
    some (.visited c l, ⟨.code code place, stack⟩, p)
  | ⟨.drop [] gone k place, stack⟩, p => some (.quiet, ⟨.code (k gone) place, stack⟩, p)
  | ⟨.drop (h :: hs) gone k place, stack⟩, p =>
    match p.remove h with
    | (.error (.unknownHandle _), p) => some (.quiet, ⟨.drop hs gone k place, stack⟩, p)
    | (_, p) => some (.quiet, ⟨.drop hs (gone + 1) k place, stack⟩, p)
  | ⟨.done r, stack⟩, p => (back r stack p).map (.quiet, ·)

end Thread

/-! ## Scenes -/

/-- A process and its threads, and what could be seen so far, step by step. -/
structure Scene (ν : Type) where
  host : Host ν
  threads : List (Thread ν)
  log : List (Sight ν) := []

namespace Scene

/-- The turn of one thread. One that has no step left lets its turn pass. -/
def turn (x : Scene ν) (i : Nat) : Scene ν :=
  match x.threads[i]? with
  | none => { x with log := x.log ++ [.quiet] }
  | some t =>
    match t.step x.log.length x.host with
    | none => { x with log := x.log ++ [.quiet] }
    | some (e, t, p) => { host := p, threads := x.threads.set i t, log := x.log ++ [e] }

/-- What has become of a process after each step, when its threads begin with
these pieces of code and take turns like this. -/
def moment (p : Host ν) (codes : List (Program ν .plain)) (turns : Nat → Nat) : Nat → Scene ν
  | 0 => { host := p, threads := codes.map Thread.start }
  | k + 1 => (moment p codes turns k).turn (turns k)

theorem length_log (p : Host ν) (codes : List (Program ν .plain)) (turns : Nat → Nat) (k : Nat) :
    (moment p codes turns k).log.length = k := by
  induction k with
  | zero => rfl
  | succ k ih =>
    rw [moment, turn]
    split
    · rw [List.length_append, ih]
      rfl
    · split <;>
      · rw [List.length_append, ih]
        rfl

end Scene

/-! ## A thread that is left alone -/

namespace Thread

/-- Steps of a thread with none of any other thread in between, from step `n` on. -/
inductive Steps : Nat → Thread ν → Host ν → Nat → Thread ν → Host ν → Prop
  | refl {n : Nat} {t : Thread ν} {p : Host ν} : Steps n t p n t p
  | head {n n' : Nat} {t t₁ t' : Thread ν} {p p₁ p' : Host ν} {e : Sight ν}
      (first : t.step n p = some (e, t₁, p₁)) (rest : Steps (n + 1) t₁ p₁ n' t' p') :
      Steps n t p n' t' p'

theorem Steps.trans {n n₁ n' : Nat} {t t₁ t' : Thread ν} {p p₁ p' : Host ν}
    (h : Steps n t p n₁ t₁ p₁) (h' : Steps n₁ t₁ p₁ n' t' p') : Steps n t p n' t' p' := by
  induction h with
  | refl => exact h'
  | head first _ ih => exact .head first (ih h')

/-- Whatever a thread goes on with later: it comes from here to this outcome,
and leaves this process. -/
def Comes (now : Now ν) (p : Host ν) (r : Outcome) (q : Host ν) : Prop :=
  ∀ n stack, ∃ n', Steps n ⟨now, stack⟩ p n' ⟨.done r, stack⟩ q

section Comes

variable {now now' : Now ν} {p q p₁ p₂ : Host ν} {r r₁ : Outcome} {ρ : Role}

theorem comes_done (r : Outcome) (p : Host ν) : Comes (.done r) p r p :=
  fun n _ => ⟨n, .refl⟩

theorem comes_lost (m : MethodId) (p : Host ν) :
    Comes (lost m) p (.error { className := "NoSuchMethodError", message := m.text }) p :=
  comes_done _ p

/-- One step, and the rest. -/
theorem Comes.head (hstep : ∀ n stack, ∃ e, step n ⟨now, stack⟩ p = some (e, ⟨now', stack⟩, p₁))
    (h : Comes now' p₁ r q) : Comes now p r q := by
  intro n stack
  obtain ⟨e, he⟩ := hstep n stack
  obtain ⟨n', hsteps⟩ := h (n + 1) stack
  exact ⟨n', .head he hsteps⟩

/-- What is pushed comes to an outcome, with which the code below it goes on. -/
theorem Comes.call {k : Outcome → Program ν ρ} {place : Place ν ρ}
    (hstep : ∀ n stack, step n ⟨now, stack⟩ p
      = some (.quiet, ⟨now', .resume k place :: stack⟩, p₁))
    (h₁ : Comes now' p₁ r₁ p₂) (h : Comes (.code (k r₁) place) p₂ r q) : Comes now p r q := by
  intro n stack
  obtain ⟨n₁, hcall⟩ := h₁ (n + 1) (.resume k place :: stack)
  obtain ⟨n', hrest⟩ := h (n₁ + 1) stack
  exact ⟨n', .head (hstep n stack) (hcall.trans (.head rfl hrest))⟩

/-- A way of running entries that threads come to. -/
def Reached (enter : Host.Enter ν) : Prop :=
  ∀ e c p r q, enter e c p = some (r, q) → Comes (.enter e c) p r q

/-- A way down that a place stands for. -/
def StandsFor : {ρ : Role} → Place ν ρ → Host.Below ν ρ → Prop
  | .plain, _, _ => True
  | .layer, v, below => ∀ args p r q, below args p = some (r, q) → Comes (.walk v args) p r q

variable {enter : Host.Enter ν}

theorem steps_begin (henter : Reached enter) {className : String} {a : Except Throwable Unit}
    (h : Host.ensureInit enter className p = some (a, q)) (purpose : Purpose ν) (n : Nat)
    (stack : List (Awaiting ν)) :
    ∃ n', Steps n (begin className purpose stack p).1 (begin className purpose stack p).2 n'
      ⟨purpose.next a, stack⟩ q := by
  rw [Host.ensureInit] at h
  rw [begin]
  split at h
  next hready =>
    cases h
    rw [if_pos hready]
    exact ⟨n, .refl⟩
  next hready =>
    rw [if_neg hready]
    dsimp only at h ⊢
    rcases Option.eq_none_or_eq_some
      ((p.setInit className (some .running)).classInits.lookup className) with hnone | ⟨init, hinit⟩
    · rw [hnone] at h ⊢
      cases h
      exact ⟨n, .refl⟩
    · rw [hinit] at h ⊢
      obtain ⟨⟨o, q'⟩, hran, hq⟩ := Option.map_eq_some_iff.mp h
      obtain ⟨n', hsteps⟩ := henter _ _ _ _ _ hran n (.init className purpose :: stack)
      cases o with
      | ok v =>
        cases hq
        exact ⟨n' + 1, hsteps.trans (.head rfl .refl)⟩
      | error t =>
        cases hq
        exact ⟨n' + 1, hsteps.trans (.head rfl .refl)⟩

/-- Calling a method. -/
theorem comes_invoke (henter : Reached enter) {m : MethodId} {c : Call}
    (h : Host.invokeWith enter m c p = some (r, q)) : Comes (.call m c) p r q := by
  rw [Host.invokeWith] at h
  cases hinfo : p.info? m with
  | none =>
    rw [hinfo] at h
    cases h
    exact .head (fun n stack => ⟨.quiet, by rw [step, hinfo]⟩) (comes_lost m p)
  | some info =>
    rw [hinfo] at h
    obtain ⟨⟨a, p₁⟩, hinit, hrest⟩ := Option.bind_eq_some_iff.mp h
    -- the class is ready, or the call ends with what its initialiser threw
    have hnext : Comes (Purpose.next (.call m c) a) p₁ r q := by
      cases a with
      | error t =>
        cases hrest
        exact comes_done _ _
      | ok _ =>
        dsimp only at hrest
        cases hm : p₁.method? m with
        | none =>
          rw [hm] at hrest
          cases hrest
          refine .head (fun n stack => ⟨.quiet, ?_⟩) (comes_lost m _)
          rw [Purpose.next, step, hm]
        | some x =>
          rw [hm] at hrest
          refine .head (fun n stack => ⟨.quiet, ?_⟩) (henter _ _ _ _ _ hrest)
          rw [Purpose.next, step, hm]
    intro n stack
    obtain ⟨n₁, hbegin⟩ := steps_begin henter hinit (.call m c) (n + 1) stack
    obtain ⟨n', hsteps⟩ := hnext n₁ stack
    refine ⟨n', .head (e := .quiet) ?_ (hbegin.trans hsteps)⟩
    rw [step, hinfo]

theorem comes_drop (hs : List HookHandle) (gone : Nat) (k : Nat → Program ν ρ) (place : Place ν ρ)
    (h : Comes (.code (k (gone + (p.removeAll hs).1)) place) (p.removeAll hs).2 r q) :
    Comes (.drop hs gone k place) p r q := by
  induction hs generalizing p gone with
  | nil => exact .head (fun n stack => ⟨.quiet, rfl⟩) h
  | cons g hs ih =>
    rw [Host.removeAll] at h
    rcases hremove : p.remove g with ⟨a, p₁⟩
    rw [hremove] at h
    have hgone (hrest : Comes (.code (k (gone + ((p₁.removeAll hs).1 + 1))) place)
        (p₁.removeAll hs).2 r q) : Comes (.drop hs (gone + 1) k place) p₁ r q := by
      refine ih (gone + 1) ?_
      rwa [Nat.add_assoc, Nat.add_comm 1]
    match a with
    | .ok _ =>
      exact .head (fun n stack => ⟨.quiet, by rw [step, hremove]⟩) (hgone h)
    | .error e =>
      cases e with
      | unknownHandle g' => exact .head (fun n stack => ⟨.quiet, by rw [step, hremove]⟩) (ih gone h)
      | _ => exact .head (fun n stack => ⟨.quiet, by rw [step, hremove]⟩) (hgone h)

/-- **Running a program**, step by step. -/
theorem comes_exec (henter : Reached enter) (code : Program ν ρ) {below : Host.Below ν ρ}
    {place : Place ν ρ} (hplace : StandsFor place below) {p : Host ν}
    (h : Host.exec enter code below p = some (r, q)) : Comes (.code code place) p r q := by
  induction code generalizing p with
  | finish o =>
    cases h
    exact .head (fun n stack => ⟨.quiet, rfl⟩) (comes_done _ _)
  | note x k ih => exact .head (fun n stack => ⟨.quiet, rfl⟩) (ih hplace h)
  | ask a k ih =>
    have hrest := ih _ hplace h
    cases a with
    | removeModule id =>
      refine .head (fun n stack => ⟨.quiet, rfl⟩) (comes_drop _ 0 k place ?_)
      rw [Nat.zero_add]
      exact hrest
    | _ => exact .head (fun n stack => ⟨.quiet, rfl⟩) hrest
  | install m expects run priority moduleId k _ ih =>
    exact .head (fun n stack => ⟨.quiet, rfl⟩) (ih _ hplace h)
  | redirect m body k _ ih =>
    rw [Host.exec] at h
    cases hred : p.redirect m (.body body) with
    | error e =>
      rw [hred] at h
      refine .head (fun n stack => ⟨.quiet, ?_⟩) (ih _ hplace h)
      rw [step, request, hred]
    | ok p₁ =>
      rw [hred] at h
      refine .head (fun n stack => ⟨.quiet, ?_⟩) (ih _ hplace h)
      rw [step, request, hred]
  | initClass className k ih =>
    obtain ⟨⟨a, p₁⟩, hinit, hrest⟩ := Option.bind_eq_some_iff.mp h
    intro n stack
    obtain ⟨n₁, hbegin⟩ := steps_begin henter hinit (.resume k place) (n + 1) stack
    obtain ⟨n', hsteps⟩ := ih a hplace hrest n₁ stack
    exact ⟨n', .head rfl (hbegin.trans hsteps)⟩
  | invoke m c k ih =>
    obtain ⟨⟨o, p₁⟩, hran, hrest⟩ := Option.bind_eq_some_iff.mp h
    exact .call (fun n stack => rfl) (comes_invoke henter hran) (ih o hplace hrest)
  | callBase g c k ih =>
    obtain ⟨⟨o, p₁⟩, hran, hrest⟩ := Option.bind_eq_some_iff.mp h
    rw [Host.callBaseWith] at hran
    cases hbase : p.base? g with
    | none =>
      rw [hbase] at hran
      cases hran
      refine .head (fun n stack => ⟨.quiet, ?_⟩) (ih _ hplace hrest)
      rw [step, request, hbase]
    | some base =>
      rw [hbase] at hran
      refine .call (fun n stack => ?_) (henter _ _ _ _ _ hran) (ih o hplace hrest)
      rw [step, request, hbase]
  | proceed args k ih =>
    obtain ⟨⟨o, p₁⟩, hran, hrest⟩ := Option.bind_eq_some_iff.mp h
    have hplain : StandsFor (ν := ν) (ρ := .plain) () () := trivial
    exact .call (fun n stack => rfl) (hplace _ _ _ _ hran) (ih o hplain hrest)

/-- Walking down a chain, step by step. -/
theorem comes_descend (henter : Reached enter) (since : Nat) {m : MethodId} {base : Entry ν}
    {this : Option Value} (ls : List (Layer ν)) {args : List Value} {p : Host ν}
    (h : Host.descend enter m base this ls args p = some (r, q)) :
    Comes (.walk ⟨since, m, base, this, ls⟩ args) p r q := by
  induction ls generalizing args p r q with
  | nil => exact .head (fun n stack => ⟨_, rfl⟩) (henter _ _ _ _ _ h)
  | cons l rest ih =>
    refine .head (fun n stack => ⟨_, rfl⟩) (comes_exec (ρ := .layer) henter _ ?_ h)
    exact fun args p r q hbelow => ih hbelow

theorem reached_enter (depth : Nat) : Reached (ν := ν) (Host.enter depth) := by
  induction depth with
  | zero => exact fun e c p r q h => nomatch h
  | succ depth ih =>
    intro e c p r q h
    cases e with
    | body b => exact .head (fun n stack => ⟨_, rfl⟩) (comes_exec (ρ := .plain) ih _ trivial h)
    | dispatcher s =>
      rw [Host.enter] at h
      cases hslot : p.slots[s]? with
      | none =>
        rw [hslot] at h
        cases h
      | some slot =>
        rw [hslot] at h
        intro n stack
        obtain ⟨n', hsteps⟩ := comes_descend ih n slot.layers h (n + 1) stack
        refine ⟨n', .head (e := .entered slot.method slot.base slot.layers) ?_ hsteps⟩
        rw [step, hslot]

end Comes

/-- **A thread that is left alone does what `exec` does**, however deep calls
may nest there. -/
theorem thread_alone {depth : Nat} (code : Program ν .plain) {p q : Host ν} {r : Outcome}
    (h : Host.exec (Host.enter depth) code () p = some (r, q)) (n : Nat) :
    ∃ n', Steps n (start code) p n' { now := .done r } q :=
  comes_exec (ρ := .plain) (reached_enter depth) code trivial h n []

end Thread

end Interpose
