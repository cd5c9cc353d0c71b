/-
Interpose.Proofs.Host.Classes — what a step of a thread does about classes.

Of all that a thread can do, little touches on classes. It sees to a class
when it calls one of its methods or is told to (`Thread.Asks`), and then the
class counts as initialised already, or has no initialiser, or its
initialiser begins; and an initialiser that has begun ends, well or badly.
Every other step leaves all classes as they are, and does no more to the
stack than to put a call onto it or to take one off (`Thread.Turned`). That
these are all the steps there are is said once, in `turned_step`. Bodies are
run by calls, but for those of initialisers and those below hooks
(`enters_of_step`).

A process with one thread is followed from step to step (`Lone.after`).
-/
import Interpose.Proofs.Host.Threads
import Interpose.Proofs.Hook.Steps

namespace Interpose

variable {ν : Type}

/-! ## Requests that are not about classes -/

namespace Host

/-- Nothing has changed in what is declared and in which classes are initialised. -/
structure SameClasses (p q : Host ν) : Prop where
  infos : ∀ m, q.info? m = p.info? m
  classInits : q.classInits = p.classInits
  initState : q.initState = p.initState

theorem SameClasses.refl (p : Host ν) : SameClasses p p := ⟨fun _ => rfl, rfl, rfl⟩

theorem HooksOnly.sameClasses {p q : Host ν} (h : HooksOnly p q) : SameClasses p q :=
  ⟨fun m => by rw [info?_eq_find?, info?_eq_find?, h.infos], h.classInits, h.initState⟩

theorem sameClasses_setForm (p : Host ν) (m : MethodId) (form : ExecForm) :
    SameClasses p (p.setForm m form) := by
  refine ⟨fun a => ?_, rfl, rfl⟩
  rw [info?_eq_find?, info?_eq_find?]
  exact congrArg (List.find? _) (p.map_info_modifyMethod m _ fun _ => rfl)

theorem sameClasses_answer (p : Host ν) (q : Query) : SameClasses p (p.answer q).2 := by
  cases q with
  | remove h => exact (p.hooksOnly_remove h).sameClasses
  | removeModule moduleId => exact (p.hooksOnly_removeAll _).sameClasses
  | setForm m form => exact p.sameClasses_setForm m form
  | deoptimize m => exact (p.idle_deoptimize m).others.sameClasses
  | enterApp | count | look => exact ⟨fun _ => rfl, rfl, rfl⟩

theorem sameClasses_redirect {p q : Host ν} {m : MethodId} {e : Entry ν}
    (h : p.redirect m e = .ok q) : SameClasses p q := by
  rw [redirect_eq_ok h]
  exact (p.hooksOnly_setEntry m e).sameClasses

end Host

theorem Purpose.next_eq_fetch {purpose : Purpose ν} {r : Except Throwable Unit} {m : MethodId}
    {c : Call} (h : purpose.next r = .fetch m c) : purpose = .call m c ∧ r = .ok () := by
  cases purpose with
  | resume k place => cases h
  | call m' c' =>
    cases r with
    | error e => cases h
    | ok _ =>
      cases h
      exact ⟨rfl, rfl⟩

namespace Thread

open Host (SameClasses)

/-! ## Kinds of steps -/

/-- The class that a frame is the initialiser of. -/
def initialised? : Awaiting ν → Option String
  | .init c _ => some c
  | .resume .. => none

/-- The classes whose initialisers are running, innermost first. -/
def initialising (t : Thread ν) : List String := t.stack.filterMap initialised?

/-- A call is put onto the stack or taken off it, or neither. -/
inductive Shifts : List (Awaiting ν) → List (Awaiting ν) → Prop
  | same {s : List (Awaiting ν)} : Shifts s s
  | push {s : List (Awaiting ν)} {ρ : Role} {k : Outcome → Program ν ρ} {place : Place ν ρ} :
      Shifts s (.resume k place :: s)
  | pop {s : List (Awaiting ν)} {ρ : Role} {k : Outcome → Program ν ρ} {place : Place ν ρ} :
      Shifts (.resume k place :: s) s

theorem Shifts.initialising {s s' : List (Awaiting ν)} (h : Shifts s s') :
    s'.filterMap initialised? = s.filterMap initialised? := by
  cases h <;> rfl

/-- A thread is to see to a class. -/
inductive Asks (p : Host ν) : Thread ν → String → Purpose ν → Prop
  | call {m : MethodId} {c : Call} {stack : List (Awaiting ν)} {info : MethodInfo}
      (hinfo : p.info? m = some info) : Asks p ⟨.call m c, stack⟩ info.className (.call m c)
  | told {ρ : Role} {className : String} {k : Except Throwable Unit → Program ν ρ}
      {place : Place ν ρ} {stack : List (Awaiting ν)} :
      Asks p ⟨.code (.initClass className k) place, stack⟩ className (.resume k place)

/-- All that a step can be. -/
inductive Turned : Thread ν → Host ν → Thread ν → Host ν → Prop
  | other {t t' : Thread ν} {p p' : Host ν} (same : SameClasses p p')
      (shifts : Shifts t.stack t'.stack) (here : ∀ m c, t'.now ≠ .fetch m c) : Turned t p t' p'
  | ready {t : Thread ν} {p : Host ν} {c : String} {purpose : Purpose ν}
      (asks : Asks p t c purpose) (counts : (p.initState.lookup c).isSome = true) :
      Turned t p ⟨purpose.next (.ok ()), t.stack⟩ p
  | bare {t : Thread ν} {p : Host ν} {c : String} {purpose : Purpose ν}
      (asks : Asks p t c purpose) (fresh : p.initState.lookup c = none)
      (without : p.classInits.lookup c = none) :
      Turned t p ⟨purpose.next (.ok ()), t.stack⟩
        ((p.setInit c (some .running)).setInit c (some .done))
  | begins {t : Thread ν} {p : Host ν} {c : String} {purpose : Purpose ν}
      {init : Program ν .plain} (asks : Asks p t c purpose) (fresh : p.initState.lookup c = none)
      (own : p.classInits.lookup c = some init) :
      Turned t p ⟨.enter (.body fun _ => init) {}, .init c purpose :: t.stack⟩
        (p.setInit c (some .running))
  | succeeds {p : Host ν} {v : Value} {c : String} {purpose : Purpose ν}
      {stack : List (Awaiting ν)} :
      Turned ⟨.done (.ok v), .init c purpose :: stack⟩ p ⟨purpose.next (.ok ()), stack⟩
        (p.setInit c (some .done))
  | fails {p : Host ν} {e : Throwable} {c : String} {purpose : Purpose ν}
      {stack : List (Awaiting ν)} :
      Turned ⟨.done (.error e), .init c purpose :: stack⟩ p ⟨purpose.next (.error e), stack⟩
        (p.setInit c none)

theorem turned_begin {t : Thread ν} {p : Host ν} {c : String} {purpose : Purpose ν}
    (asks : Asks p t c purpose) :
    Turned t p (begin c purpose t.stack p).1 (begin c purpose t.stack p).2 := by
  rw [begin]
  split
  next counts => exact .ready asks counts
  next hfresh =>
    have hfresh := Option.not_isSome_iff_eq_none.mp hfresh
    dsimp only
    split
    next hnone => exact .bare asks hfresh hnone
    next init hsome => exact .begins asks hfresh hsome

theorem turned_request {ρ : Role} (stack : List (Awaiting ν)) (code : Program ν ρ)
    (place : Place ν ρ) (p : Host ν) :
    Turned ⟨.code code place, stack⟩ p (request stack code place p).1
      (request stack code place p).2 := by
  have hcode : ∀ {ρ' : Role} (k : Program ν ρ') (place' : Place ν ρ') (q : Host ν),
      SameClasses p q → Turned ⟨.code code place, stack⟩ p ⟨.code k place', stack⟩ q :=
    fun k place' q same => .other same .same fun _ _ h => by cases h
  cases code with
  | finish r => exact .other (.refl p) .same fun _ _ h => by cases h
  | note n k => exact hcode k place _ ⟨fun _ => rfl, rfl, rfl⟩
  | ask q k =>
    cases q with
    | removeModule id => exact .other (.refl p) .same fun _ _ h => by cases h
    | remove h => exact hcode _ place _ (p.sameClasses_answer (.remove h))
    | setForm m form => exact hcode _ place _ (p.sameClasses_answer (.setForm m form))
    | deoptimize m => exact hcode _ place _ (p.sameClasses_answer (.deoptimize m))
    | enterApp => exact hcode _ place _ (p.sameClasses_answer .enterApp)
    | count c => exact hcode _ place _ (p.sameClasses_answer (.count c))
    | look => exact hcode _ place _ (p.sameClasses_answer .look)
  | install m expects run priority moduleId k =>
    exact hcode _ place _ (p.hooksOnly_install m _ priority moduleId).sameClasses
  | redirect m body k =>
    rw [request]
    split
    next => exact hcode _ place _ (.refl p)
    next q hq => exact hcode _ place _ (Host.sameClasses_redirect hq)
  | initClass c k => exact turned_begin .told
  | invoke m c k => exact .other (.refl p) .push fun _ _ h => by cases h
  | callBase h c k =>
    rw [request]
    split
    next => exact .other (.refl p) .push fun _ _ h => by cases h
    next => exact hcode _ place _ (.refl p)
  | proceed args k => exact .other (.refl p) .push fun _ _ h => by cases h

/-- **All that a step of a thread can do about classes.** -/
theorem turned_step {n : Nat} {t t' : Thread ν} {p p' : Host ν} {e : Sight ν}
    (h : t.step n p = some (e, t', p')) : Turned t p t' p' := by
  obtain ⟨now, stack⟩ := t
  cases now with
  | code code place =>
    have hrequest : request stack code place p = (t', p') :=
      (Prod.mk.inj (Option.some.inj h)).2
    have hturned := turned_request stack code place p
    rwa [hrequest] at hturned
  | call m c =>
    rw [step] at h
    split at h
    next =>
      cases h
      exact .other (.refl p) .same fun _ _ h => by cases h
    next info hinfo =>
      have hbegin : begin info.className (.call m c) stack p = (t', p') :=
        (Prod.mk.inj (Option.some.inj h)).2
      have hasks : Asks p ⟨.call m c, stack⟩ info.className (.call m c) := .call hinfo
      have hturned := turned_begin hasks
      rwa [hbegin] at hturned
  | fetch m c =>
    rw [step] at h
    split at h <;> cases h <;> exact .other (.refl p) .same fun _ _ h => by cases h
  | enter e c =>
    cases e with
    | body b =>
      cases h
      exact .other (.refl p) .same fun _ _ h => by cases h
    | dispatcher s =>
      rw [step] at h
      split at h <;> cases h
      exact .other (.refl p) .same fun _ _ h => by cases h
  | walk v args =>
    obtain ⟨since, m, base, this, below⟩ := v
    cases below <;> cases h <;> exact .other (.refl p) .same fun _ _ h => by cases h
  | drop hs gone k place =>
    cases hs with
    | nil =>
      cases h
      exact .other (.refl p) .same fun _ _ h => by cases h
    | cons g hs =>
      have hsame := (p.hooksOnly_remove g).sameClasses
      rw [step] at h
      split at h
      next heq =>
        cases h
        rw [heq] at hsame
        exact .other hsame .same fun _ _ h => by cases h
      next heq =>
        cases h
        rw [heq] at hsame
        exact .other hsame .same fun _ _ h => by cases h
  | done r =>
    obtain ⟨⟨t'', p''⟩, hback, heq⟩ := Option.map_eq_some_iff.mp h
    cases heq
    cases stack with
    | nil => cases hback
    | cons f stack =>
      cases f with
      | resume k place =>
        cases hback
        exact .other (.refl p) .pop fun _ _ h => by cases h
      | init c purpose =>
        cases r with
        | ok v =>
          cases hback
          exact .succeeds
        | error e =>
          cases hback
          exact .fails

/-! ### Initialisers on the stack -/

theorem Asks.class_of_call {p : Host ν} {t : Thread ν} {c : String} {m : MethodId}
    {args : Call} (h : Asks p t c (.call m args)) :
    t = ⟨.call m args, t.stack⟩ ∧ ∃ info, p.info? m = some info ∧ info.className = c := by
  cases h with
  | call hinfo => exact ⟨rfl, _, hinfo, rfl⟩

/-- A class whose initialiser begins was in no state before. -/
theorem Turned.fresh {p p' : Host ν} {t t' : Thread ν} {c : String} {purpose : Purpose ν}
    (h : Turned t p t' p') (hstack : t'.stack = .init c purpose :: t.stack) :
    p.initState.lookup c = none := by
  cases h with
  | other _ shifts =>
    rw [hstack] at shifts
    generalize t.stack = s at shifts
    cases shifts
  | ready | bare => exact absurd hstack.symm (List.cons_ne_self _ _)
  | begins _ fresh _ =>
    cases hstack
    exact fresh
  | succeeds | fails => cases hstack

/-- An initialiser that is on the stack has just begun, or was there before. -/
theorem Turned.frame {p p' : Host ν} {t t' : Thread ν} {c : String} {purpose : Purpose ν}
    {rest : List (Awaiting ν)} (h : Turned t p t' p')
    (hframe : .init c purpose :: rest <:+ t'.stack) :
    .init c purpose :: rest <:+ t.stack ∨ (t.stack = rest ∧ Asks p t c purpose) := by
  cases h with
  | other _ shifts =>
    refine .inl ?_
    generalize t.stack = s at shifts
    generalize t'.stack = s' at shifts hframe
    cases shifts with
    | same => exact hframe
    | push => exact (List.suffix_cons_iff.mp hframe).resolve_left fun heq => nomatch heq
    | pop => exact hframe.trans (List.suffix_cons _ _)
  | ready | bare => exact .inl hframe
  | begins asks =>
    rcases List.suffix_cons_iff.mp hframe with heq | hframe
    · cases heq
      exact .inr ⟨rfl, asks⟩
    · exact .inl hframe
  | succeeds | fails => exact .inl (hframe.trans (List.suffix_cons _ _))

/-! ### Whose code is run -/

/-- Code below a hook is run: a layer hands a call on, or a handle is called. -/
inductive CallsThrough : Now ν → Prop
  | walk {v : Visit ν} {args : List Value} : CallsThrough (.walk v args)
  | callBase {ρ : Role} {h : HookHandle} {c : Call} {k : Outcome → Program ν ρ}
      {place : Place ν ρ} : CallsThrough (.code (.callBase h c k) place)

theorem enters_of_begin {p : Host ν} {c : String} {purpose : Purpose ν}
    {stack : List (Awaiting ν)} {e : Entry ν} {args : Call}
    (h : (begin c purpose stack p).1.now = .enter e args) :
    ∃ init, p.classInits.lookup c = some init ∧
      (begin c purpose stack p).1 = ⟨.enter (.body fun _ => init) {}, .init c purpose :: stack⟩ := by
  have hnext : purpose.next (.ok ()) ≠ .enter e args := by
    cases purpose <;> intro heq <;> cases heq
  rw [begin] at h ⊢
  split at h
  next => exact absurd h hnext
  next hready =>
    rw [if_neg hready]
    dsimp only at h ⊢
    split at h
    next => exact absurd h hnext
    next init hinit => exact ⟨init, hinit, rfl⟩

/-- **Who runs a body**: a call of its method, which has come to it; the class that it
initialises; or a hook that calls through. -/
theorem enters_of_step {n : Nat} {t t' : Thread ν} {p p' : Host ν} {s : Sight ν}
    {b : Call → Program ν .plain} {args : Call} (h : t.step n p = some (s, t', p'))
    (hnow : t'.now = .enter (.body b) args) :
    (∃ m x, t.now = .fetch m args ∧ p.method? m = some x ∧ x.entry = .body b) ∨
      (∃ c purpose init, p.classInits.lookup c = some init ∧
        t' = ⟨.enter (.body fun _ => init) {}, .init c purpose :: t.stack⟩) ∨
      CallsThrough t.now := by
  obtain ⟨now, stack⟩ := t
  have hbegin : ∀ {c : String} {purpose : Purpose ν}, begin c purpose stack p = (t', p') →
      ∃ c purpose init, p.classInits.lookup c = some init ∧
        t' = ⟨.enter (.body fun _ => init) {}, .init c purpose :: stack⟩ := by
    intro c purpose heq
    have hnow : (begin c purpose stack p).1.now = .enter (.body b) args := by
      rw [heq]
      exact hnow
    obtain ⟨init, hinit, hthread⟩ := enters_of_begin hnow
    rw [heq] at hthread
    exact ⟨c, purpose, init, hinit, hthread⟩
  cases now with
  | code code place =>
    have hrequest : request stack code place p = (t', p') :=
      (Prod.mk.inj (Option.some.inj h)).2
    cases code with
    | callBase => exact .inr (.inr .callBase)
    | initClass => exact .inr (.inl (hbegin hrequest))
    | ask q => cases q <;> cases hrequest <;> cases hnow
    | redirect =>
      rw [request] at hrequest
      split at hrequest <;> cases hrequest <;> cases hnow
    | finish | note | install | invoke | proceed => cases hrequest; cases hnow
  | call m c =>
    rw [step] at h
    split at h
    next => cases h; cases hnow
    next => exact .inr (.inl (hbegin (Prod.mk.inj (Option.some.inj h)).2))
  | fetch m c =>
    rw [step] at h
    split at h
    next => cases h; cases hnow
    next x hx =>
      cases h
      obtain ⟨hentry, rfl⟩ := Now.enter.inj hnow
      exact .inl ⟨m, x, rfl, hx, hentry⟩
  | enter e c =>
    cases e with
    | body => cases h; cases hnow
    | dispatcher s =>
      rw [step] at h
      split at h <;> cases h
      cases hnow
  | walk => exact .inr (.inr .walk)
  | drop hs =>
    cases hs with
    | nil => cases h; cases hnow
    | cons g hs =>
      rw [step] at h
      split at h <;> cases h <;> cases hnow
  | done r =>
    obtain ⟨⟨t'', p''⟩, hback, heq⟩ := Option.map_eq_some_iff.mp h
    cases heq
    cases stack with
    | nil => cases hback
    | cons f stack =>
      cases f with
      | resume => cases hback; cases hnow
      | init c purpose => cases r <;> cases purpose <;> cases hback <;> cases hnow

end Thread

/-! ## One thread -/

/-- A process with one thread. -/
structure Lone (ν : Type) where
  thread : Thread ν
  host : Host ν

namespace Lone

open Thread (Turned Steps)

/-- What becomes of it in one step; nothing if there is none left. -/
def next (n : Nat) (x : Lone ν) : Lone ν :=
  match x.thread.step n x.host with
  | some (_, t, p) => ⟨t, p⟩
  | none => x

/-- A process that runs this code in its one thread, after so many steps. -/
def after (p : Host ν) (code : Program ν .plain) : Nat → Lone ν
  | 0 => ⟨Thread.start code, p⟩
  | k + 1 => (after p code k).next k

theorem next_cases (n : Nat) (x : Lone ν) :
    x.next n = x ∨ Turned x.thread x.host (x.next n).thread (x.next n).host := by
  rw [next]
  split
  next hstep => exact .inr (Thread.turned_step hstep)
  next => exact .inl rfl

/-- A row of steps leads from one moment to a later one. -/
theorem after_of_steps {p₀ : Host ν} {code : Program ν .plain} {k k' : Nat} {t t' : Thread ν}
    {p p' : Host ν} (h : Steps k t p k' t' p') (hk : after p₀ code k = ⟨t, p⟩) :
    after p₀ code k' = ⟨t', p'⟩ := by
  induction h with
  | refl => exact hk
  | head first _ ih =>
    refine ih ?_
    rw [after, hk, next, first]

end Lone

end Interpose
