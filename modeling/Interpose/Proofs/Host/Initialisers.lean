/-
Interpose.Proofs.Host.Initialisers — initialisers run once, first, and never inside themselves.

A process runs one piece of code in one thread, and is looked at from step
to step. The stack says which initialisers are running, and the process says
the same of its classes (`Lone.Coherent`); a class comes out of the state it
is in only when its initialiser begins, succeeds or fails, or when it turns
out that it has none (`Lone.state_moves`). What is to be said of
initialisers is said in terms of these events.

The code may be any, and so may the initialisers: they may call whatever
they like, their own class included, and make of errors what they like. Only
that calls come back at all is said of code that makes nothing but calls, of
methods that make none.

Main statement: `initialised_once`.
-/
import Interpose.Proofs.Host.Classes
import Interpose.Proofs.Host.Depth
import Interpose.Proofs.Host.Nesting

namespace Interpose

variable {ν : Type}

open Thread (Asks Shifts Turned initialised?)
open Host (lookup_setInit)

namespace Lone

/-- What is true at every moment of a process that was `p₀` in the beginning. -/
structure Coherent (p₀ : Host ν) (x : Lone ν) : Prop where
  infos : ∀ m, x.host.info? m = p₀.info? m
  classInits : x.host.classInits = p₀.classInits
  /-- The classes that are being initialised are those whose initialisers are on the stack. -/
  running_iff : ∀ c, x.host.initState.lookup c = some .running ↔ c ∈ x.thread.initialising
  nodup : x.thread.initialising.Nodup
  own : ∀ c ∈ x.thread.initialising, p₀.classInits.lookup c ≠ none
  /-- A call waits for the class of its method. -/
  waits : ∀ c m args, .init c (.call m args) ∈ x.thread.stack →
    ∃ info, p₀.info? m = some info ∧ info.className = c
  /-- By the time that its entry is read, the class of a method counts as initialised. -/
  here : ∀ m args, x.thread.now = .fetch m args →
    ∃ info, p₀.info? m = some info ∧ (x.host.initState.lookup info.className).isSome = true

namespace Coherent

variable {p₀ p p' : Host ν} {t t' : Thread ν} {c : String}

theorem fresh_not_running (h : Coherent p₀ ⟨t, p⟩) (hfresh : p.initState.lookup c = none) :
    c ∉ t.initialising := by
  intro hmem
  have hrunning := (h.running_iff c).mpr hmem
  rw [show (⟨t, p⟩ : Lone ν).host.initState.lookup c = none from hfresh] at hrunning
  cases hrunning

/-- An initialiser ends, and its class is in another state from now on. -/
theorem ended {r : Outcome} {purpose : Purpose ν} {stack : List (Awaiting ν)}
    {a : Except Throwable Unit} {s : Option InitState}
    (h : Coherent p₀ ⟨⟨.done r, .init c purpose :: stack⟩, p⟩) (hs : s ≠ some .running)
    (hready : a = .ok () → s.isSome = true) :
    Coherent p₀ ⟨⟨purpose.next a, stack⟩, p.setInit c s⟩ := by
  obtain ⟨hnot, hnodup⟩ : c ∉ stack.filterMap initialised? ∧
      (stack.filterMap initialised?).Nodup := List.nodup_cons.mp h.nodup
  refine ⟨h.infos, h.classInits, fun b => ?_, hnodup, fun b hb => h.own b (List.mem_cons_of_mem _ hb),
    fun b m args hb => h.waits b m args (List.mem_cons_of_mem _ hb), fun m args hnow => ?_⟩
  · have hold := h.running_iff b
    show (p.setInit c s).initState.lookup b = _ ↔ b ∈ stack.filterMap initialised?
    rw [lookup_setInit]
    by_cases hb : b = c
    · subst hb
      rw [if_pos rfl]
      exact iff_of_false hs hnot
    · rw [if_neg hb]
      exact hold.trans ⟨fun hmem => (List.mem_cons.mp hmem).resolve_left hb, List.mem_cons_of_mem _⟩
  · obtain ⟨rfl, hok⟩ := Purpose.next_eq_fetch hnow
    obtain ⟨info, hinfo, rfl⟩ := h.waits c m args List.mem_cons_self
    refine ⟨info, hinfo, ?_⟩
    show ((p.setInit _ s).initState.lookup _).isSome = true
    rw [lookup_setInit, if_pos rfl]
    exact hready hok

/-- **Every step keeps process and stack in agreement.** -/
theorem turned (h : Coherent p₀ ⟨t, p⟩) (hturned : Turned t p t' p') : Coherent p₀ ⟨t', p'⟩ := by
  cases hturned with
  | other same shifts here =>
    refine ⟨fun m => (same.infos m).trans (h.infos m), same.classInits.trans h.classInits,
      fun c => ?_, ?_, ?_, fun c m args hmem => h.waits c m args ?_,
      fun m args hnow => absurd hnow (here m args)⟩
    · show p'.initState.lookup c = _ ↔ c ∈ t'.stack.filterMap initialised?
      rw [same.initState, shifts.initialising]
      exact h.running_iff c
    · show (t'.stack.filterMap initialised?).Nodup
      rw [shifts.initialising]
      exact h.nodup
    · show ∀ c ∈ t'.stack.filterMap initialised?, _
      rw [shifts.initialising]
      exact h.own
    · have hmem : .init c (.call m args) ∈ t'.stack := hmem
      show .init c (.call m args) ∈ t.stack
      generalize t.stack = s at shifts
      generalize t'.stack = s' at shifts hmem
      cases shifts with
      | same => exact hmem
      | push => exact (List.mem_cons.mp hmem).resolve_left fun heq => nomatch heq
      | pop => exact List.mem_cons_of_mem _ hmem
  | ready asks counts =>
    refine ⟨h.infos, h.classInits, h.running_iff, h.nodup, h.own, h.waits, fun m args hnow => ?_⟩
    obtain ⟨rfl, _⟩ := Purpose.next_eq_fetch hnow
    obtain ⟨_, info, hinfo, rfl⟩ := asks.class_of_call
    exact ⟨info, (h.infos m).symm.trans hinfo, counts⟩
  | @bare _ _ c purpose asks fresh without =>
    have hnot := h.fresh_not_running fresh
    refine ⟨h.infos, h.classInits, fun b => ?_, h.nodup, h.own, h.waits, fun m args hnow => ?_⟩
    · show ((p.setInit c _).setInit c _).initState.lookup b = _ ↔ _
      rw [lookup_setInit, lookup_setInit]
      split
      next hb =>
        subst hb
        exact iff_of_false (fun heq => nomatch heq) hnot
      next => exact h.running_iff b
    · obtain ⟨rfl, _⟩ := Purpose.next_eq_fetch hnow
      obtain ⟨_, info, hinfo, rfl⟩ := asks.class_of_call
      refine ⟨info, (h.infos m).symm.trans hinfo, ?_⟩
      show (((p.setInit _ _).setInit _ _).initState.lookup _).isSome = true
      rw [lookup_setInit, if_pos rfl]
      rfl
  | @begins _ _ c purpose init asks fresh own =>
    have hnot := h.fresh_not_running fresh
    refine ⟨h.infos, h.classInits, fun b => ?_, List.nodup_cons.mpr ⟨hnot, h.nodup⟩, fun b hb => ?_,
      fun b m args hmem => ?_, fun m args hnow => nomatch hnow⟩
    · show (p.setInit c _).initState.lookup b = _ ↔ b ∈ c :: t.initialising
      rw [lookup_setInit, List.mem_cons]
      split
      next hb => exact iff_of_true rfl (.inl hb)
      next hb => exact (h.running_iff b).trans ⟨.inr, fun hmem => hmem.resolve_left hb⟩
    · rcases List.mem_cons.mp hb with rfl | hb
      · have hinits : p.classInits = p₀.classInits := h.classInits
        rw [← hinits, own]
        exact Option.some_ne_none init
      · exact h.own b hb
    · rcases List.mem_cons.mp hmem with heq | hmem
      · cases heq
        obtain ⟨_, info, hinfo, hclass⟩ := asks.class_of_call
        exact ⟨info, (h.infos m).symm.trans hinfo, hclass⟩
      · exact h.waits b m args hmem
  | succeeds => exact h.ended (by simp) fun _ => rfl
  | fails => exact h.ended (by simp) fun heq => nomatch heq

end Coherent

variable {p₀ : Host ν} {code : Program ν .plain}

theorem coherent_after (h₀ : p₀.initState = []) (code : Program ν .plain) (k : Nat) :
    Coherent p₀ (after p₀ code k) := by
  induction k with
  | zero =>
    refine ⟨fun _ => rfl, rfl, fun c => ?_, List.nodup_nil, fun c hc => ?_, fun c m args hmem => ?_,
      fun m args hnow => nomatch hnow⟩
    · show p₀.initState.lookup c = _ ↔ _
      rw [h₀]
      exact iff_of_false (fun heq => nomatch heq) List.not_mem_nil
    · cases hc
    · cases hmem
  | succ k ih =>
    rcases next_cases k (after p₀ code k) with hsame | hturned
    · rw [after, hsame]
      exact ih
    · exact ih.turned hturned

/-! ## What happens to a class -/

section Events

variable (p₀ : Host ν) (code : Program ν .plain)

/-- A class's initialiser begins. -/
def Begins (c : String) (k : Nat) : Prop :=
  ∃ init purpose, p₀.classInits.lookup c = some init ∧ (after p₀ code (k + 1)).thread
    = ⟨.enter (.body fun _ => init) {}, .init c purpose :: (after p₀ code k).thread.stack⟩

/-- It comes to this end. -/
def Ends (c : String) (r : Outcome) (k : Nat) : Prop :=
  ∃ purpose stack, (after p₀ code k).thread = ⟨.done r, .init c purpose :: stack⟩

/-- What a class's state becomes in a step, and why. -/
inductive Moves (c : String) (k : Nat) : Option InitState → Option InitState → Prop
  | stays {s : Option InitState} : Moves c k s s
  | begins (event : Begins p₀ code c k) : Moves c k none (some .running)
  | succeeds {v : Value} (event : Ends p₀ code c (.ok v) k) :
      Moves c k (some .running) (some .done)
  | fails {e : Throwable} (event : Ends p₀ code c (.error e) k) : Moves c k (some .running) none
  /-- There is nothing to run. -/
  | without (bare : p₀.classInits.lookup c = none) : Moves c k none (some .done)

end Events

/-- How far a class is. -/
def state (x : Lone ν) (c : String) : Option InitState := x.host.initState.lookup c

theorem moves_of_turned {c : String} {k : Nat} (h : Coherent p₀ (after p₀ code k))
    (hturned : Turned (after p₀ code k).thread (after p₀ code k).host
      (after p₀ code (k + 1)).thread (after p₀ code (k + 1)).host) :
    Moves p₀ code c k ((after p₀ code k).state c) ((after p₀ code (k + 1)).state c) := by
  rcases hx : after p₀ code k with ⟨t, p⟩
  rcases hx' : after p₀ code (k + 1) with ⟨t', p'⟩
  rw [hx] at h
  rw [hx, hx'] at hturned
  have hrunning : ∀ {purpose : Purpose ν} {r : Outcome} {stack : List (Awaiting ν)},
      t = ⟨.done r, .init c purpose :: stack⟩ → p.initState.lookup c = some .running := by
    rintro purpose r stack rfl
    exact (h.running_iff c).mpr List.mem_cons_self
  -- nothing happens to any class but the one that the step is about
  have hset : ∀ {b : String} {s : Option InitState},
      (b = c → Moves p₀ code c k (p.initState.lookup c) s) →
        Moves p₀ code c k (p.initState.lookup c) ((p.setInit b s).initState.lookup c) := by
    intro b s hmoves
    rw [lookup_setInit]
    split
    next hb => exact hmoves hb.symm
    next => exact .stays
  show Moves p₀ code c k (p.initState.lookup c) (p'.initState.lookup c)
  cases hturned with
  | other same =>
    rw [same.initState]
    exact .stays
  | ready => exact .stays
  | @bare _ _ b _ _ fresh bare =>
    show Moves p₀ code c k _ (((p.setInit b _).setInit b (some .done)).initState.lookup c)
    rw [lookup_setInit]
    split
    next hb =>
      subst hb
      rw [fresh]
      exact .without (h.classInits ▸ bare)
    next hb => exact hset fun heq => absurd heq.symm hb
  | @begins _ _ b purpose init _ fresh own =>
    refine hset fun hb => ?_
    subst hb
    rw [fresh]
    exact .begins ⟨init, purpose, h.classInits ▸ own, by rw [hx', hx]⟩
  | @succeeds _ v b purpose stack =>
    refine hset fun hb => ?_
    subst hb
    rw [hrunning rfl]
    exact .succeeds ⟨purpose, stack, by rw [hx]⟩
  | @fails _ e b purpose stack =>
    refine hset fun hb => ?_
    subst hb
    rw [hrunning rfl]
    exact .fails ⟨purpose, stack, by rw [hx]⟩

/-- **Why the state of a class changes.** -/
theorem state_moves (h₀ : p₀.initState = []) (code : Program ν .plain) (c : String) (k : Nat) :
    Moves p₀ code c k ((after p₀ code k).state c) ((after p₀ code (k + 1)).state c) := by
  rcases next_cases k (after p₀ code k) with hsame | hturned
  · rw [show after p₀ code (k + 1) = after p₀ code k from hsame]
    exact .stays
  · exact moves_of_turned (coherent_after h₀ code k) hturned

/-! ## From event to event -/

section Run

variable {c : String} {j k : Nat}

theorem fresh_of_begins (h : Begins p₀ code c k) : (after p₀ code k).state c = none := by
  obtain ⟨init, purpose, -, hthread⟩ := h
  rcases next_cases k (after p₀ code k) with hsame | hturned
  · rw [show after p₀ code (k + 1) = after p₀ code k from hsame] at hthread
    exact absurd (congrArg Thread.stack hthread).symm (List.cons_ne_self _ _)
  · exact hturned.fresh (congrArg Thread.stack hthread)

theorem done_of_le (h₀ : p₀.initState = []) (h : (after p₀ code j).state c = some .done)
    (hjk : j ≤ k) : (after p₀ code k).state c = some .done := by
  induction hjk with
  | refl => exact h
  | @step k _ ih =>
    have hmoves := state_moves h₀ code c k
    rw [ih] at hmoves
    generalize (after p₀ code (k + 1)).state c = s at hmoves
    cases hmoves
    rfl

/-- A class that has an initialiser keeps having no state until that begins. -/
theorem fresh_of_le (h₀ : p₀.initState = []) (hown : p₀.classInits.lookup c ≠ none)
    (h : (after p₀ code j).state c = none) (hjk : j ≤ k)
    (hnot : ∀ i, j ≤ i → i < k → ¬ Begins p₀ code c i) : (after p₀ code k).state c = none := by
  induction hjk with
  | refl => exact h
  | @step k hjk ih =>
    have hmoves := state_moves h₀ code c k
    rw [ih fun i hji hik => hnot i hji (Nat.lt_succ_of_lt hik)] at hmoves
    generalize (after p₀ code (k + 1)).state c = s at hmoves
    cases hmoves with
    | stays => rfl
    | begins event => exact absurd event (hnot k hjk (Nat.lt_succ_self k))
    | without bare => exact absurd bare hown

/-- A class that is initialised has been, if it has an initialiser. -/
theorem succeeded_of_done (h₀ : p₀.initState = []) (hown : p₀.classInits.lookup c ≠ none)
    (h : (after p₀ code k).state c = some .done) : ∃ j < k, ∃ v, Ends p₀ code c (.ok v) j := by
  induction k with
  | zero =>
    have hnone : (after p₀ code 0).state c = none := by rw [state, after, h₀]; rfl
    rw [hnone] at h
    cases h
  | succ k ih =>
    have hmoves := state_moves h₀ code c k
    rw [h] at hmoves
    generalize hs : (after p₀ code k).state c = s at hmoves
    cases hmoves with
    | stays =>
      obtain ⟨j, hj, hends⟩ := ih hs
      exact ⟨j, Nat.lt_succ_of_lt hj, hends⟩
    | succeeds event => exact ⟨k, Nat.lt_succ_self k, _, event⟩
    | without bare => exact absurd bare hown

theorem next_of_ends_ok {v : Value} (h : Ends p₀ code c (.ok v) k) :
    (after p₀ code (k + 1)).state c = some .done := by
  obtain ⟨purpose, stack, h⟩ := h
  rw [state, after, next, h]
  exact (lookup_setInit _ _ _ _).trans (if_pos rfl)

theorem next_of_ends_error {e : Throwable} {purpose : Purpose ν} {stack : List (Awaiting ν)}
    (h : (after p₀ code k).thread = ⟨.done (.error e), .init c purpose :: stack⟩) :
    after p₀ code (k + 1)
      = ⟨⟨purpose.next (.error e), stack⟩, (after p₀ code k).host.setInit c none⟩ := by
  rw [after, next, h]
  rfl

/-- A call of a method whose class has no state begins with the initialiser, if there is one. -/
theorem begins_of_call {m : MethodId} {args : Call} {info : MethodInfo} (h₀ : p₀.initState = [])
    (hnow : (after p₀ code k).thread.now = .call m args) (hinfo : p₀.info? m = some info)
    (hown : p₀.classInits.lookup info.className ≠ none)
    (hfresh : (after p₀ code k).state info.className = none) :
    Begins p₀ code info.className k := by
  have hcoherent := coherent_after h₀ code k
  obtain ⟨init, hinit⟩ := Option.ne_none_iff_exists'.mp hown
  refine ⟨init, .call m args, hinit, ?_⟩
  rw [after, next]
  rcases hx : after p₀ code k with ⟨⟨now, stack⟩, p⟩
  rw [hx] at hcoherent hnow hfresh
  have hinfo : p.info? m = some info := (hcoherent.infos m).trans hinfo
  have hinit : (p.setInit info.className (some .running)).classInits.lookup info.className
      = some init := by rw [← hinit, ← hcoherent.classInits]; rfl
  have hready : ¬ (p.initState.lookup info.className).isSome = true := by
    rw [show p.initState.lookup info.className = none from hfresh]
    exact Bool.false_ne_true
  cases hnow
  rw [Thread.step, hinfo]
  dsimp only
  rw [Thread.begin, if_neg hready]
  dsimp only
  rw [hinit]

/-- **Where an initialiser that runs comes from.** -/
theorem origin {purpose : Purpose ν} {rest : List (Awaiting ν)}
    (h : .init c purpose :: rest <:+ (after p₀ code k).thread.stack) :
    ∃ i < k, Asks (after p₀ code i).host (after p₀ code i).thread c purpose ∧
      (after p₀ code i).thread.stack = rest ∧
      ∀ n, i < n → n ≤ k → .init c purpose :: rest <:+ (after p₀ code n).thread.stack := by
  induction k with
  | zero => exact absurd (List.suffix_nil.mp h) (List.cons_ne_nil _ _)
  | succ k ih =>
    have hframe : .init c purpose :: rest <:+ (after p₀ code k).thread.stack ∨
        ((after p₀ code k).thread.stack = rest ∧
          Asks (after p₀ code k).host (after p₀ code k).thread c purpose) := by
      rcases next_cases k (after p₀ code k) with hsame | hturned
      · rw [after, hsame] at h
        exact .inl h
      · exact hturned.frame h
    rcases hframe with hframe | ⟨hstack, hasks⟩
    · obtain ⟨i, hi, hasks, hstack, hon⟩ := ih hframe
      refine ⟨i, Nat.lt_succ_of_lt hi, hasks, hstack, fun n hin hn => ?_⟩
      rcases Nat.le_succ_iff.mp hn with hn | rfl
      · exact hon n hin hn
      · exact h
    · refine ⟨k, Nat.lt_succ_self k, hasks, hstack, fun n hin hn => ?_⟩
      rwa [show n = k + 1 from Nat.le_antisymm hn hin]

/-! ## What initialisers do -/

theorem not_initialising_of_begins (h₀ : p₀.initState = []) (h : Begins p₀ code c k) :
    c ∉ (after p₀ code k).thread.initialising :=
  (coherent_after h₀ code k).fresh_not_running (fresh_of_begins h)

theorem not_begins_of_succeeded (h₀ : p₀.initState = []) {v : Value}
    (h : Ends p₀ code c (.ok v) j) (hjk : j < k) : ¬ Begins p₀ code c k := by
  intro hbegins
  have hdone := done_of_le h₀ (next_of_ends_ok h) hjk
  rw [fresh_of_begins hbegins] at hdone
  cases hdone

/-- A class that is initialised is being so, or has been. -/
theorem initialised_cases (h₀ : p₀.initState = []) (hown : p₀.classInits.lookup c ≠ none)
    (h : (after p₀ code k).state c ≠ none) :
    c ∈ (after p₀ code k).thread.initialising ∨ ∃ j < k, ∃ v, Ends p₀ code c (.ok v) j := by
  obtain ⟨s, hs⟩ := Option.ne_none_iff_exists'.mp h
  cases s with
  | running => exact .inl (((coherent_after h₀ code k).running_iff c).mp hs)
  | done => exact .inr (succeeded_of_done h₀ hown hs)

/-- A class whose initialiser has failed has none of its states until it begins again. -/
theorem fresh_of_failed (h₀ : p₀.initState = []) {e : Throwable}
    (h : Ends p₀ code c (.error e) j) (hjk : j < k)
    (hnot : ∀ i, j < i → i < k → ¬ Begins p₀ code c i) :
    p₀.classInits.lookup c ≠ none ∧ (after p₀ code k).state c = none := by
  obtain ⟨purpose, stack, hthread⟩ := h
  have hown : p₀.classInits.lookup c ≠ none := by
    refine (coherent_after h₀ code j).own _ ?_
    rw [hthread]
    exact List.mem_cons_self
  have hfresh : (after p₀ code (j + 1)).state c = none := by
    rw [next_of_ends_error hthread]
    exact (lookup_setInit _ _ _ _).trans (if_pos rfl)
  exact ⟨hown, fresh_of_le h₀ hown hfresh hjk hnot⟩

theorem enters_cases (h₀ : p₀.initState = []) {b : Call → Program ν .plain} {args : Call}
    (hnow : (after p₀ code (k + 1)).thread.now = .enter (.body b) args) :
    (∃ m x, (after p₀ code k).thread.now = .fetch m args ∧
      (after p₀ code k).host.method? m = some x ∧ x.entry = .body b) ∨
    (∃ c, Begins p₀ code c k) ∨ Thread.CallsThrough (after p₀ code k).thread.now := by
  rw [after, next] at hnow
  split at hnow
  next t' p' hstep =>
    rcases Thread.enters_of_step hstep hnow with hfetch | ⟨c, purpose, init, hinit, hthread⟩ | h
    · exact .inl hfetch
    · refine .inr (.inl ⟨c, init, purpose, ?_, ?_⟩)
      · rw [← (coherent_after h₀ code k).classInits]
        exact hinit
      · rw [after, next, hstep]
        exact hthread
    · exact .inr (.inr h)
  next hstuck =>
    -- a body can always be entered
    rcases hx : after p₀ code k with ⟨⟨now, stack⟩, p⟩
    rw [hx] at hnow hstuck
    cases hnow
    cases hstuck

/-- The call for which an initialiser began that fails comes to its error, and never to its
method. -/
theorem call_of_failed {e : Throwable} {m : MethodId} {args : Call} {rest : List (Awaiting ν)}
    (h : (after p₀ code j).thread = ⟨.done (.error e), .init c (.call m args) :: rest⟩) :
    ∃ i < j, (after p₀ code i).thread = ⟨.call m args, rest⟩ ∧
      (∀ n, i < n → n ≤ j + 1 → ∀ m' args', (after p₀ code n).thread ≠ ⟨.fetch m' args', rest⟩) ∧
      (after p₀ code (j + 1)).thread = ⟨.done (.error e), rest⟩ := by
  have hstack : (after p₀ code j).thread.stack = .init c (.call m args) :: rest :=
    congrArg Thread.stack h
  have hframe : .init c (.call m args) :: rest <:+ (after p₀ code j).thread.stack :=
    ⟨[], hstack.symm⟩
  obtain ⟨i, hij, hasks, hbelow, hon⟩ := origin hframe
  have hnext := congrArg thread (next_of_ends_error h)
  refine ⟨i, hij, ?_, fun n hin hn m' args' hfetch => ?_, hnext⟩
  · rw [hasks.class_of_call.1, hbelow]
  · rcases Nat.le_succ_iff.mp hn with hn | rfl
    · have hlength := (hon n hin hn).length_le
      rw [hfetch, List.length_cons] at hlength
      exact absurd hlength (Nat.not_succ_le_self _)
    · rw [hnext] at hfetch
      cases hfetch

/-- Code that makes nothing but calls comes to an end, however deep these may nest as long
as every initialiser can stand on the way down. -/
theorem after_reaches (hinert : p₀.Inert) (hcode : code.Within .calls) :
    ∃ n r q, after p₀ code n = ⟨⟨.done r, []⟩, q⟩ ∧
      ∀ d, p₀.unstarted < d → Host.exec (Host.enter d) code () p₀ = some (r, q) := by
  obtain ⟨⟨r, q⟩, hleast, -⟩ := Host.exec_reaches _ p₀ code hinert hcode (Nat.lt_succ_self _)
  obtain ⟨n, hsteps⟩ := Thread.thread_alone code hleast 0
  refine ⟨n, r, q, after_of_steps hsteps rfl, fun d hd => ?_⟩
  exact Host.exec_mono (Host.enter_mono hd) code trivial hleast

end Run

end Lone

/-! ## Initialisers -/

open Lone (after Begins Ends)

/-- What holds of initialisers wherever they stand and whatever they do, as one
thread runs a piece of code. -/
structure InitialisesOnce (p₀ : Host ν) (code : Program ν .plain) : Prop where
  /-- None begins while it is running. -/
  alone : ∀ c k, Begins p₀ code c k → c ∉ (after p₀ code k).thread.initialising
  /-- None begins again after it has succeeded. -/
  once : ∀ c v j k, Ends p₀ code c (.ok v) j → j < k → ¬ Begins p₀ code c k
  /-- A call begins with the initialiser of its class, unless that runs or has succeeded. -/
  needed : ∀ k m args info, (after p₀ code k).thread.now = .call m args →
    p₀.info? m = some info → p₀.classInits.lookup info.className ≠ none →
    info.className ∉ (after p₀ code k).thread.initialising →
    (∀ j < k, ∀ v, ¬ Ends p₀ code info.className (.ok v) j) → Begins p₀ code info.className k
  /-- After it has failed, it begins again with the next call. -/
  again : ∀ e j k m args info, Ends p₀ code info.className (.error e) j → j < k →
    (∀ i, j < i → i < k → ¬ Begins p₀ code info.className i) →
    (after p₀ code k).thread.now = .call m args → p₀.info? m = some info →
    Begins p₀ code info.className k
  /-- A call comes to its method only when the initialiser has succeeded, or runs further up. -/
  ready : ∀ k m args, (after p₀ code k).thread.now = .fetch m args →
    ∃ info, p₀.info? m = some info ∧ (p₀.classInits.lookup info.className ≠ none →
      info.className ∈ (after p₀ code k).thread.initialising ∨
        ∃ j < k, ∃ v, Ends p₀ code info.className (.ok v) j)
  /-- But for hooks that call through, and for initialisers, bodies are run by calls that
  have come to them. -/
  bodies : ∀ k b args, (after p₀ code (k + 1)).thread.now = .enter (.body b) args →
    (∃ m x, (after p₀ code k).thread.now = .fetch m args ∧
      (after p₀ code k).host.method? m = some x ∧ x.entry = .body b) ∨
    (∃ c, Begins p₀ code c k) ∨ Thread.CallsThrough (after p₀ code k).thread.now
  /-- Where the initialiser fails that a call began with, the call has not come to its
  method, and comes to the same error. -/
  failed : ∀ c e m args rest j,
    (after p₀ code j).thread = ⟨.done (.error e), .init c (.call m args) :: rest⟩ →
    ∃ i < j, (after p₀ code i).thread = ⟨.call m args, rest⟩ ∧
      (∀ n, i < n → n ≤ j + 1 → ∀ m' args', (after p₀ code n).thread ≠ ⟨.fetch m' args', rest⟩) ∧
      (after p₀ code (j + 1)).thread = ⟨.done (.error e), rest⟩
  /-- Between calls from the outside no class is left half-way. -/
  between : ∀ k, (after p₀ code k).thread.stack = [] →
    ∀ c, (after p₀ code k).host.initState.lookup c ≠ some .running
  /-- Where nothing is hooked and methods make no calls, all calls come back, nested at most
  as deep as there are initialisers. -/
  comesBack : p₀.Inert → code.Within .calls →
    ∃ n r q, after p₀ code n = ⟨⟨.done r, []⟩, q⟩ ∧
      ∀ d, p₀.unstarted < d → Host.exec (Host.enter d) code () p₀ = some (r, q)

/-- **Initialisers run once, first, and never inside themselves.** -/
theorem initialised_once (p₀ : Host ν) (h₀ : p₀.initState = []) (code : Program ν .plain) :
    InitialisesOnce p₀ code where
  alone c k h := Lone.not_initialising_of_begins h₀ h
  once c v j k h hjk := Lone.not_begins_of_succeeded h₀ h hjk
  needed := by
    intro k m args info hnow hinfo hown hnot hnever
    refine Lone.begins_of_call h₀ hnow hinfo hown (Classical.byContradiction fun hstate => ?_)
    rcases Lone.initialised_cases h₀ hown hstate with hmem | ⟨j, hj, v, hends⟩
    · exact hnot hmem
    · exact hnever j hj v hends
  again := by
    intro e j k m args info hends hjk hnot hnow hinfo
    obtain ⟨hown, hfresh⟩ := Lone.fresh_of_failed h₀ hends hjk hnot
    exact Lone.begins_of_call h₀ hnow hinfo hown hfresh
  ready := by
    intro k m args hnow
    obtain ⟨info, hinfo, hready⟩ := (Lone.coherent_after h₀ code k).here m args hnow
    exact ⟨info, hinfo, fun hown =>
      Lone.initialised_cases h₀ hown (Option.isSome_iff_ne_none.mp hready)⟩
  bodies k b args hnow := Lone.enters_cases h₀ hnow
  failed c e m args rest j h := Lone.call_of_failed h
  between := by
    intro k hstack c hrunning
    have hmem := ((Lone.coherent_after h₀ code k).running_iff c).mp hrunning
    rw [Thread.initialising, hstack] at hmem
    cases hmem
  comesBack := Lone.after_reaches

/-- Two classes whose initialisers call methods of one another; that of the second one
fails the first time. -/
def Host.twoClasses : Host Unit where
  methods := [
    { info := { id := ⟨1⟩, className := "A", name := "f" }
      entry := .body fun _ => .finish (.ok .null) },
    { info := { id := ⟨2⟩, className := "B", name := "f" }
      entry := .body fun _ => .finish (.ok .null) }]
  classInits := [
    ("A", .invoke ⟨2⟩ {} .finish),
    ("B", .invoke ⟨1⟩ {} fun _ => .ask (.count 0) fun n =>
      .finish (if n = 1 then .error { className := "Error", message := "" } else .ok .null))]

theorem Host.twoClasses_inert : Host.twoClasses.Inert where
  slots := rfl
  table := rfl
  entries := by
    intro m x hx
    have hmem := List.mem_of_find?_eq_some hx
    rcases List.mem_cons.mp hmem with rfl | hmem
    · exact ⟨_, rfl, fun _ => trivial⟩
    · cases List.mem_singleton.mp hmem
      exact ⟨_, rfl, fun _ => trivial⟩
  inits := by
    intro c init h
    obtain ⟨l₁, l₂, hsplit, -⟩ := List.lookup_eq_some_iff.mp h
    have hmem : (c, init) ∈ Host.twoClasses.classInits := by rw [hsplit]; simp
    rcases List.mem_cons.mp hmem with heq | hmem
    · cases heq
      exact fun _ => trivial
    · cases List.mem_singleton.mp hmem
      exact fun _ => ⟨trivial, fun _ => trivial⟩

/-- The first call fails, and leaves nothing behind; the next one begins again with both
initialisers, of which each finds the other class on its way. -/
theorem initialised_once_mutual :
    let code : Program Unit .plain := .invoke ⟨1⟩ {} fun _ => .invoke ⟨1⟩ {} .finish
    let x := after Host.twoClasses code
    Host.twoClasses.initState = [] ∧ InitialisesOnce Host.twoClasses code ∧
      Host.twoClasses.Inert ∧ code.Within .calls ∧
      (x 5).thread.initialising = ["B", "A"] ∧ (x 19).host.initState = [] ∧
      (x 24).thread.initialising = ["B", "A"] ∧
      (x 45).host.initState = [("A", .done), ("B", .done)] := by
  intro code x
  refine ⟨rfl, initialised_once _ rfl code, Host.twoClasses_inert, fun _ _ => trivial, ?_⟩
  decide +kernel

end Interpose
