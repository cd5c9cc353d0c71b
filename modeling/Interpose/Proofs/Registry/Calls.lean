/-
Interpose.Proofs.Registry.Calls — changes that overlap, step by step.

`Live.mutate` makes a change in one go. In the daemon it is a row of steps:
a call waits for the writers' lock, takes a copy of the current document,
changes the copy, saves it, puts it in the place of the current one, tells
its version, and lets go of the lock with its answer. Other calls take
their steps in between, readers look at the current document whenever they
like, and the daemon may end at any moment, upon which the next one opens
the store again. `run_alone` says that a call that is left alone does what
`Live.mutate` does.

A step is guarded by the stage of the call that takes it and by the lock,
and by nothing else. That the lock keeps calls apart is `Exclusive`, and
then few of the steps are turns of any interest (`Exclusive.turns`): of the
call that holds the lock, and of what was saved, told and answered.

Main statements: `run_alone`, `Exclusive.step`, `Exclusive.turns`.
-/
import Interpose.Proofs.Registry.Life

namespace Interpose.Registry

/-! ## States -/

/-- Where a call stands. -/
inductive Stage where
  /-- It has not begun. -/
  | idle
  | waiting (m : Mutation)
  | entered (m : Mutation)
  | copied (m : Mutation) (copy : Document)
  | changed (e : Deed)
  | saved (e : Deed)
  | placed (e : Deed)
  /-- It is about to let go of the lock and to answer. -/
  | ended (m : Mutation) (answer : Except MutationFault MutationOutcome)
  /-- It has answered, or was lost with the daemon. -/
  | gone

/-- The daemon's registry, its disk, and the calls: each has a number of its own. -/
structure System where
  live : Live
  disk : Disk
  lock : Option Nat := none
  stage : Nat → Stage := fun _ => .idle

namespace System

/-- A daemon that has just opened the store. -/
def opened (s : Store) (disk : Disk) : System where
  live := (Live.start s disk).1
  disk := (Live.start s disk).2

/-- One call comes to a stage, and may change the rest; the other calls stay. -/
def during (x : System) (i : Nat) (g : Stage) (live : Live) (disk : Disk) (lock : Option Nat) :
    System where
  live := live
  disk := disk
  lock := lock
  stage j := if j = i then g else x.stage j

/-- What a call becomes when the daemon ends. -/
def lost : Stage → Stage
  | .idle => .idle
  | _ => .gone

end System

/-! ## Steps -/

/-- What a change answers. -/
def Deed.outcome (e : Deed) : MutationOutcome := Live.outcome e.mutation e.after

/-- What can be seen to happen. -/
inductive Act where
  | call (i : Nat) (m : Mutation)
  | lock (i : Nat)
  | copy (i : Nat)
  | refuse (i : Nat)
  | change (i : Nat)
  | save (i : Nat) (e : Deed)
  | fail (i : Nat) (e : StoreFault)
  | place (i : Nat) (e : Deed)
  | tell (i : Nat) (version : UInt64)
  | answer (i : Nat) (m : Mutation) (a : Except MutationFault MutationOutcome)
  /-- A client looks at the whole document. -/
  | look (client : Nat) (d : Document)
  /-- A client asks which modules a process is to be given. -/
  | query (client : Nat) (app : AppDescriptor) (version : UInt64) (modules : List Module)
  /-- The daemon ends, and the next one opens the store. -/
  | reopen

/-- The steps. Only `save`, `fail` and `reopen` have to do with the disk, and
only `place`, `tell` and `reopen` change what can be seen of the registry. -/
inductive Step (s : Store) (x : System) : Act → System → Prop
  | call {i : Nat} (m : Mutation) (begins : x.stage i = .idle) :
    Step s x (.call i m) (x.during i (.waiting m) x.live x.disk x.lock)
  | lock {i : Nat} {m : Mutation} (waits : x.stage i = .waiting m) (free : x.lock = none) :
    Step s x (.lock i) (x.during i (.entered m) x.live x.disk (some i))
  | copy {i : Nat} {m : Mutation} (entered : x.stage i = .entered m) :
    Step s x (.copy i) (x.during i (.copied m x.live.current) x.live x.disk x.lock)
  | refuse {i : Nat} {m : Mutation} {copy : Document} {why : Refusal}
      (copied : x.stage i = .copied m copy) (refused : copy.next m = .error why) :
    Step s x (.refuse i) (x.during i (.ended m (.error (.refused why))) x.live x.disk x.lock)
  | change {i : Nat} {m : Mutation} {copy next : Document}
      (copied : x.stage i = .copied m copy) (made : copy.next m = .ok next) :
    Step s x (.change i) (x.during i (.changed ⟨copy, m, next⟩) x.live x.disk x.lock)
  | save {i : Nat} {e : Deed} {disk : Disk} (changed : x.stage i = .changed e)
      (saves : s.save e.after x.disk = (.ok (), disk)) :
    Step s x (.save i e) (x.during i (.saved e) x.live disk x.lock)
  | fail {i : Nat} {e : Deed} {disk : Disk} (fault : Option StoreFault) {f : StoreFault}
      (changed : x.stage i = .changed e)
      (fails : s.saveUnless fault e.after x.disk = (.error f, disk)) :
    Step s x (.fail i f)
      (x.during i (.ended e.mutation (.error (.persist f))) x.live disk x.lock)
  | place {i : Nat} {e : Deed} (saved : x.stage i = .saved e) :
    Step s x (.place i e)
      (x.during i (.placed e) { x.live with current := e.after } x.disk x.lock)
  | tell {i : Nat} {e : Deed} (placed : x.stage i = .placed e) :
    Step s x (.tell i e.after.version)
      (x.during i (.ended e.mutation (.ok e.outcome))
        { x.live with bumps := x.live.bumps.send e.after.version } x.disk x.lock)
  | answer {i : Nat} {m : Mutation} {a : Except MutationFault MutationOutcome}
      (ended : x.stage i = .ended m a) :
    Step s x (.answer i m a) (x.during i .gone x.live x.disk none)
  | look (client : Nat) : Step s x (.look client x.live.current) x
  | query (client : Nat) (app : AppDescriptor) :
    Step s x (.query client app x.live.current.version (x.live.current.applicable app)) x
  | reopen : Step s x .reopen { System.opened s x.disk with stage i := System.lost (x.stage i) }

/-- Steps one after another, and all that was seen of them. -/
inductive Run (s : Store) (x₀ : System) : List Act → System → Prop
  | nil : Run s x₀ [] x₀
  | snoc {acts : List Act} {x y : System} {act : Act} (run : Run s x₀ acts x)
      (step : Step s x act y) : Run s x₀ (acts ++ [act]) y

variable {s : Store} {x y x₀ : System} {act : Act} {acts : List Act} {i : Nat}

namespace System

variable {g g' : Stage} {live live' : Live} {disk disk' : Disk} {lock lock' : Option Nat}

@[simp] theorem during_stage_self : (x.during i g live disk lock).stage i = g := if_pos rfl

theorem during_stage_of_ne {j : Nat} (h : j ≠ i) :
    (x.during i g live disk lock).stage j = x.stage j := if_neg h

/-- Of the stages a call comes to, only the last one counts. -/
@[simp] theorem during_during :
    (x.during i g live disk lock).during i g' live' disk' lock'
      = x.during i g' live' disk' lock' := by
  rw [during, during, during]
  congr 1
  funext j
  by_cases hj : j = i <;> simp [hj]

@[simp] theorem during_live : (x.during i g live disk lock).live = live := rfl

@[simp] theorem during_disk : (x.during i g live disk lock).disk = disk := rfl

@[simp] theorem during_lock : (x.during i g live disk lock).lock = lock := rfl

end System

/-! ## A call that is left alone -/

/-- **A call that is left alone does what `Live.mutateWith` does**, and answers
what that answers. -/
theorem run_alone (s : Store) (x : System) (m : Mutation) (fault : Option StoreFault)
    (hidle : x.stage i = .idle) (hfree : x.lock = none) :
    ∃ acts, Run s x
      (acts ++ [.answer i m (x.live.mutateWith (s.saveUnless fault) m x.disk).1])
      (x.during i .gone (x.live.mutateWith (s.saveUnless fault) m x.disk).2.1
        (x.live.mutateWith (s.saveUnless fault) m x.disk).2.2 none) := by
  have hwaiting := Run.nil.snoc (Step.call (s := s) m hidle)
  have hentered := hwaiting.snoc (.lock System.during_stage_self hfree)
  have hcopied := hentered.snoc (.copy System.during_stage_self)
  simp only [System.during_during, System.during_live, System.during_disk, System.during_lock]
    at hcopied
  cases hnext : x.live.current.next m with
  | error why =>
    have hended := hcopied.snoc (.refuse System.during_stage_self hnext)
    have hanswer := hended.snoc (.answer System.during_stage_self)
    simp only [System.during_during] at hanswer
    simp only [Live.mutateWith, hnext]
    exact ⟨_, hanswer⟩
  | ok next =>
    have hchanged := hcopied.snoc (.change System.during_stage_self hnext)
    rcases hsave : s.saveUnless fault next x.disk with ⟨result, disk⟩
    simp only [Live.mutateWith, hnext, hsave]
    cases result with
    | error e =>
      have hended := hchanged.snoc (.fail fault System.during_stage_self hsave)
      have hanswer := hended.snoc (.answer System.during_stage_self)
      simp only [System.during_during] at hanswer
      exact ⟨_, hanswer⟩
    | ok _ =>
      have hsaves : s.save next x.disk = (.ok (), disk) := by
        cases fault with
        | some e => cases hsave
        | none => exact hsave
      have hsaved := hchanged.snoc (.save System.during_stage_self hsaves)
      have hplaced := hsaved.snoc (.place System.during_stage_self)
      have htold := hplaced.snoc (.tell System.during_stage_self)
      have hanswer := htold.snoc (.answer System.during_stage_self)
      simp only [System.during_during] at hanswer
      exact ⟨_, hanswer⟩

/-! ## The lock -/

/-- Whether a call at this stage must be the one that holds the lock. -/
def Stage.inside : Stage → Bool
  | .idle | .waiting _ | .gone => false
  | _ => true

/-- Exactly the call that holds the lock is inside. -/
def Exclusive (x : System) : Prop := ∀ j, (x.stage j).inside = true ↔ x.lock = some j

/-- A call that stays inside, or stays outside, leaves the lock as it is. -/
theorem Exclusive.during (hx : Exclusive x) {g : Stage} (hsame : g.inside = (x.stage i).inside)
    (live : Live) (disk : Disk) : Exclusive (x.during i g live disk x.lock) := by
  intro j
  by_cases hj : j = i
  · rw [hj, System.during_stage_self, hsame]
    exact hx i
  · rw [System.during_stage_of_ne hj]
    exact hx j

/-- **The lock keeps calls apart.** -/
theorem Exclusive.step (hx : Exclusive x) (h : Step s x act y) : Exclusive y := by
  cases h with
  | call m begins => exact hx.during (by rw [begins]; rfl) _ _
  | @lock i m waits free =>
    intro j
    by_cases hj : j = i
    · rw [hj, System.during_stage_self]
      exact iff_of_true rfl rfl
    · rw [System.during_stage_of_ne hj, hx j, free]
      simp [Ne.symm hj]
  | copy entered => exact hx.during (by rw [entered]; rfl) _ _
  | refuse copied refused => exact hx.during (by rw [copied]; rfl) _ _
  | change copied made => exact hx.during (by rw [copied]; rfl) _ _
  | save changed saves => exact hx.during (by rw [changed]; rfl) _ _
  | fail fault changed fails => exact hx.during (by rw [changed]; rfl) _ _
  | place saved => exact hx.during (by rw [saved]; rfl) _ _
  | tell placed => exact hx.during (by rw [placed]; rfl) _ _
  | @answer i m a ended =>
    have hlock : x.lock = some i := (hx i).mp (by rw [ended]; rfl)
    intro j
    by_cases hj : j = i
    · rw [hj, System.during_stage_self]
      exact iff_of_false (by decide) (by simp)
    · rw [System.during_stage_of_ne hj, hx j, hlock]
      simp [Ne.symm hj]
  | look client => exact hx
  | query client app => exact hx
  | reopen =>
    intro j
    show (System.lost (x.stage j)).inside = true ↔ none = some j
    cases x.stage j <;> simp [System.lost, Stage.inside]

theorem exclusive_opened (s : Store) (disk : Disk) : Exclusive (System.opened s disk) :=
  fun _ => iff_of_false (by simp [System.opened, Stage.inside]) (by simp [System.opened])

/-- The stage of the call that holds the lock. -/
def System.holding (x : System) : Stage := x.lock.elim .idle x.stage

/-- A call that is inside is the one that holds the lock, whatever it comes to. -/
theorem Exclusive.turn (hx : Exclusive x) {g : Stage} (hstage : x.stage i = g)
    (hinside : g.inside = true) :
    x.holding = g ∧
      ∀ g' live disk, (x.during i g' live disk x.lock).holding = g' := by
  have hlock : x.lock = some i := (hx i).mp (hstage ▸ hinside)
  refine ⟨?_, fun g' live disk => ?_⟩
  · rw [System.holding, hlock]
    exact hstage
  · rw [System.holding, System.during_lock, hlock]
    exact System.during_stage_self

/-- What a call does that is not inside does not concern the one that is. -/
theorem Exclusive.turn_of_outside (hx : Exclusive x) {g : Stage} (hstage : x.stage i = g)
    (houtside : g.inside = false) (g' : Stage) (live : Live) (disk : Disk) :
    (x.during i g' live disk x.lock).holding = x.holding := by
  rw [System.holding, System.holding, System.during_lock]
  cases hlock : x.lock with
  | none => rfl
  | some j =>
    have hj : j ≠ i := by
      rintro rfl
      have hinside := (hx j).mpr hlock
      rw [hstage, houtside] at hinside
      cases hinside
    exact System.during_stage_of_ne hj

/-! ## What has happened -/

/-- The changes that were saved, in order. -/
def saves (acts : List Act) : List Deed :=
  acts.filterMap fun
    | .save _ e => some e
    | _ => none

/-- The versions that were told. -/
def told (acts : List Act) : List UInt64 :=
  acts.filterMap fun
    | .tell _ v => some v
    | _ => none

/-- The changes that were answered with success, and what was answered. -/
def successes (acts : List Act) : List (Mutation × MutationOutcome) :=
  acts.filterMap fun
    | .answer _ m (.ok o) => some (m, o)
    | _ => none

/-- A version that can be seen: read, told, or answered. -/
def Act.seen? : Act → Option UInt64
  | .look _ d => some d.version
  | .query _ _ v _ => some v
  | .tell _ v => some v
  | .answer _ _ (.ok o) => some o.version
  | _ => none

/-- All versions that were seen, in the order they were seen in. -/
def seen (acts : List Act) : List UInt64 := acts.filterMap Act.seen?

/-- The document that changes led to. -/
def lastOf (base : Document) (es : List Deed) : Document := (es.getLast?.map (·.after)).getD base

/-- Some changes, or all of them but the last. -/
def behind (isBehind : Bool) (es : List Deed) : List Deed := if isBehind then es.dropLast else es

/-! ## What the stage says -/

namespace Stage

/-- The call has saved its change and has yet to put it in place. -/
def unplaced : Stage → Bool
  | saved _ => true
  | _ => false

/-- The call has saved its change and has yet to tell its version. -/
def untold : Stage → Bool
  | saved _ | placed _ => true
  | _ => false

/-- The call has saved its change and has yet to answer. -/
def unanswered : Stage → Bool
  | saved _ | placed _ | ended _ (.ok _) => true
  | _ => false

/-- What the call that holds the lock can rely on. -/
def Coherent (es : List Deed) (d : Document) : Stage → Prop
  | copied _ copy => copy = d
  | changed e => e.before = d ∧ e.before.next e.mutation = .ok e.after
  | saved e | placed e => es.getLast? = some e
  | ended m (.ok o) => ∃ e, es.getLast? = some e ∧ m = e.mutation ∧ o = e.outcome
  | _ => True

end Stage

section Counting

variable {base d : Document} {es : List Deed} {e : Deed}

@[simp] theorem saves_append (acts acts' : List Act) :
    saves (acts ++ acts') = saves acts ++ saves acts' := List.filterMap_append

@[simp] theorem successes_append (acts acts' : List Act) :
    successes (acts ++ acts') = successes acts ++ successes acts' := List.filterMap_append

@[simp] theorem told_append (acts acts' : List Act) :
    told (acts ++ acts') = told acts ++ told acts' := List.filterMap_append

@[simp] theorem seen_append (acts acts' : List Act) :
    seen (acts ++ acts') = seen acts ++ seen acts' := List.filterMap_append

@[simp] theorem lastOf_append (base : Document) (es : List Deed) (e : Deed) :
    lastOf base (es ++ [e]) = e.after := by
  simp [lastOf]

theorem lastOf_of_getLast? (h : es.getLast? = some e) : lastOf base es = e.after := by
  rw [lastOf, h]
  rfl

@[simp] theorem behind_false (es : List Deed) : behind false es = es := rfl

@[simp] theorem behind_true_append (es : List Deed) (e : Deed) : behind true (es ++ [e]) = es :=
  List.dropLast_concat

theorem prefix_behind (isBehind : Bool) (es : List Deed) : behind isBehind es <+: es := by
  cases isBehind with
  | false => exact List.prefix_refl es
  | true => exact List.dropLast_prefix es

theorem Row.eq_lastOf (h : Row base es d) : d = lastOf base es := by
  cases h with
  | nil => rfl
  | snoc _ _ => rw [lastOf_append]

end Counting

/-! ## What a step comes to -/

/-- What a step other than opening the store again comes to, for the call that holds the lock and
for what can be seen. -/
inductive Turn (x y : System) : Act → Prop
  | quiet {act : Act} (saves : saves [act] = []) (told : told [act] = [])
      (successes : successes [act] = []) (live : y.live = x.live)
      (unplaced : y.holding.unplaced = x.holding.unplaced)
      (untold : y.holding.untold = x.holding.untold)
      (unanswered : y.holding.unanswered = x.holding.unanswered)
      (relies : ∀ es, x.holding.Coherent es x.live.current → y.holding.Coherent es x.live.current) :
      Turn x y act
  | save {i : Nat} {e : Deed} (before : x.holding = .changed e) (after : y.holding = .saved e)
      (live : y.live = x.live) : Turn x y (.save i e)
  | place {i : Nat} {e : Deed} (before : x.holding = .saved e) (after : y.holding = .placed e)
      (live : y.live = { x.live with current := e.after }) : Turn x y (.place i e)
  | tell {i : Nat} {e : Deed} (before : x.holding = .placed e)
      (after : y.holding = .ended e.mutation (.ok e.outcome))
      (live : y.live = { x.live with bumps := x.live.bumps.send e.after.version }) :
      Turn x y (.tell i e.after.version)
  | answer {i : Nat} {m : Mutation} {o : MutationOutcome} (before : x.holding = .ended m (.ok o))
      (after : y.holding = .idle) (live : y.live = x.live) : Turn x y (.answer i m (.ok o))

/-- A step that neither saves nor tells nor answers with success, from one
stage of the call that holds the lock to another. -/
theorem Turn.between {g g' : Stage} (hbefore : x.holding = g) (hafter : y.holding = g')
    (hacts : saves [act] = [] ∧ told [act] = [] ∧ successes [act] = [])
    (hlive : y.live = x.live)
    (hstages : g'.unplaced = g.unplaced ∧ g'.untold = g.untold ∧ g'.unanswered = g.unanswered)
    (hrelies : ∀ es, g.Coherent es x.live.current → g'.Coherent es x.live.current) :
    Turn x y act := by
  obtain ⟨hsaves, htold, hsuccesses⟩ := hacts
  obtain ⟨hunplaced, huntold, hunanswered⟩ := hstages
  subst hbefore hafter
  exact .quiet hsaves htold hsuccesses hlive hunplaced huntold hunanswered hrelies

/-- **While calls are kept apart, these are all the turns there are.** -/
theorem Exclusive.turns (hx : Exclusive x) (h : Step s x act y) (hgoes : act ≠ .reopen) :
    Turn x y act := by
  cases h with
  | call m begins =>
    exact .between rfl (hx.turn_of_outside begins rfl (.waiting m) x.live x.disk)
      ⟨rfl, rfl, rfl⟩ rfl ⟨rfl, rfl, rfl⟩ fun _ => id
  | lock waits free =>
    have hbefore : x.holding = .idle := by rw [System.holding, free]; rfl
    exact .between hbefore System.during_stage_self ⟨rfl, rfl, rfl⟩ rfl ⟨rfl, rfl, rfl⟩
      fun _ _ => trivial
  | copy entered =>
    obtain ⟨hbefore, hafter⟩ := hx.turn entered rfl
    exact .between hbefore (hafter ..) ⟨rfl, rfl, rfl⟩ rfl ⟨rfl, rfl, rfl⟩ fun _ _ => rfl
  | refuse copied refused =>
    obtain ⟨hbefore, hafter⟩ := hx.turn copied rfl
    exact .between hbefore (hafter ..) ⟨rfl, rfl, rfl⟩ rfl ⟨rfl, rfl, rfl⟩ fun _ _ => trivial
  | change copied made =>
    obtain ⟨hbefore, hafter⟩ := hx.turn copied rfl
    exact .between hbefore (hafter ..) ⟨rfl, rfl, rfl⟩ rfl ⟨rfl, rfl, rfl⟩
      fun _ hcopy => ⟨hcopy, made⟩
  | save changed saves =>
    obtain ⟨hbefore, hafter⟩ := hx.turn changed rfl
    exact .save hbefore (hafter ..) rfl
  | fail fault changed fails =>
    obtain ⟨hbefore, hafter⟩ := hx.turn changed rfl
    exact .between hbefore (hafter ..) ⟨rfl, rfl, rfl⟩ rfl ⟨rfl, rfl, rfl⟩ fun _ _ => trivial
  | place saved =>
    obtain ⟨hbefore, hafter⟩ := hx.turn saved rfl
    exact .place hbefore (hafter ..) rfl
  | tell placed =>
    obtain ⟨hbefore, hafter⟩ := hx.turn placed rfl
    exact .tell hbefore (hafter ..) rfl
  | @answer i m a ended =>
    have hbefore := (hx.turn ended rfl).1
    cases a with
    | error f => exact .between hbefore rfl ⟨rfl, rfl, rfl⟩ rfl ⟨rfl, rfl, rfl⟩ fun _ _ => trivial
    | ok o => exact .answer hbefore rfl rfl
  | look client => exact .between rfl rfl ⟨rfl, rfl, rfl⟩ rfl ⟨rfl, rfl, rfl⟩ fun _ => id
  | query client app => exact .between rfl rfl ⟨rfl, rfl, rfl⟩ rfl ⟨rfl, rfl, rfl⟩ fun _ => id
  | reopen => exact absurd rfl hgoes

end Interpose.Registry
