/-
Interpose.Proofs.Registry.Durable — what was answered stays, and what failed leaves nothing.

The daemon may end between any two steps, and the next one opens what was
saved. Since a change is saved before anybody can see it, whatever was seen
is on the disk, and so no version ever goes backwards, not even across
daemons. A call that could not save its change does nothing more but to
answer: each call is followed through its stages, which it passes in one
direction only (`Accounted`).

Main statement: `durable_run`.
-/
import Interpose.Proofs.Registry.Coherent

namespace Interpose.Registry

variable {s : Store} {x y : System} {act : Act} {acts : List Act} {i : Nat}

/-! ## One direction -/

/-- How far a call has come. -/
def Stage.rank : Stage → Nat
  | idle => 0
  | waiting _ => 1
  | entered _ => 2
  | copied _ _ => 3
  | changed _ => 4
  | saved _ => 5
  | placed _ => 6
  | ended _ _ => 7
  | gone => 8

theorem rank_during {g g' : Stage} (hstage : x.stage i = g) (hrank : g.rank ≤ g'.rank)
    (live : Live) (disk : Disk) (lock : Option Nat) (j : Nat) :
    (x.stage j).rank ≤ ((x.during i g' live disk lock).stage j).rank := by
  by_cases hj : j = i
  · rw [hj, hstage, System.during_stage_self]
    exact hrank
  · exact Nat.le_of_eq (congrArg Stage.rank (System.during_stage_of_ne hj).symm)

/-- No call ever goes back. -/
theorem rank_step (h : Step s x act y) (j : Nat) : (x.stage j).rank ≤ (y.stage j).rank := by
  cases h with
  | call m begins => exact rank_during begins (by simp [Stage.rank]) ..
  | lock waits free => exact rank_during waits (by simp [Stage.rank]) ..
  | copy entered => exact rank_during entered (by simp [Stage.rank]) ..
  | refuse copied refused => exact rank_during copied (by simp [Stage.rank]) ..
  | change copied made => exact rank_during copied (by simp [Stage.rank]) ..
  | save changed saves => exact rank_during changed (by simp [Stage.rank]) ..
  | fail fault changed fails => exact rank_during changed (by simp [Stage.rank]) ..
  | place saved => exact rank_during saved (by simp [Stage.rank]) ..
  | tell placed => exact rank_during placed (by simp [Stage.rank]) ..
  | answer ended => exact rank_during ended (by simp [Stage.rank]) ..
  | look client => exact Nat.le_refl _
  | query client app => exact Nat.le_refl _
  | reopen =>
    show _ ≤ (System.lost (x.stage j)).rank
    cases x.stage j <;> simp [System.lost, Stage.rank]

/-! ## Every trace belongs to a save -/

/-- A call at this stage has saved the change it is about. -/
def Stage.Backed (acts : List Act) (i : Nat) : Stage → Prop
  | saved e | placed e => .save i e ∈ acts
  | ended m (.ok o) => ∃ e, .save i e ∈ acts ∧ m = e.mutation ∧ o = e.outcome
  | _ => True

theorem Stage.Backed.mono {g : Stage} (h : g.Backed acts i) (more : List Act) :
    g.Backed (acts ++ more) i := by
  unfold Backed at h ⊢
  split at h
  · exact List.mem_append_left _ h
  · exact List.mem_append_left _ h
  · obtain ⟨e, he, hm, ho⟩ := h
    exact ⟨e, List.mem_append_left _ he, hm, ho⟩
  · trivial

/-- **What was put in place, told, or answered with success was saved by the
same call before, and a call whose save failed did none of it.** -/
structure Accounted (acts : List Act) (x : System) : Prop where
  backed : ∀ i, (x.stage i).Backed acts i
  saved : ∀ i e, .save i e ∈ acts → 5 ≤ (x.stage i).rank
  failed : ∀ i f, .fail i f ∈ acts → 7 ≤ (x.stage i).rank ∧ ∀ e, .save i e ∉ acts
  placed : ∀ i e, .place i e ∈ acts → .save i e ∈ acts
  told : ∀ i v, .tell i v ∈ acts → ∃ e, .save i e ∈ acts ∧ v = e.after.version
  answered : ∀ i m o, .answer i m (.ok o) ∈ acts →
    ∃ e, .save i e ∈ acts ∧ m = e.mutation ∧ o = e.outcome

namespace Accounted

theorem backed_step (hx : Accounted acts x) (h : Step s x act y) (j : Nat) :
    (y.stage j).Backed (acts ++ [act]) j := by
  -- a call that does not take the step is backed as before
  have hduring : ∀ {i g live disk lock}, g.Backed (acts ++ [act]) i →
      ((x.during i g live disk lock).stage j).Backed (acts ++ [act]) j := by
    intro i g live disk lock hg
    by_cases hj : j = i
    · rw [hj, System.during_stage_self]
      exact hg
    · rw [System.during_stage_of_ne hj]
      exact (hx.backed j).mono _
  have hnew : act ∈ acts ++ [act] := List.mem_concat_self
  cases h with
  | save changed saves => exact hduring hnew
  | @place i e saved =>
    have hsave := hx.backed i
    rw [saved] at hsave
    exact hduring (List.mem_append_left _ hsave)
  | @tell i e placed =>
    have hsave := hx.backed i
    rw [placed] at hsave
    exact hduring ⟨e, List.mem_append_left _ hsave, rfl, rfl⟩
  | look client => exact (hx.backed j).mono _
  | query client app => exact (hx.backed j).mono _
  | reopen =>
    show (System.lost (x.stage j)).Backed _ j
    cases x.stage j <;> trivial
  | _ => exact hduring trivial

theorem step (hx : Accounted acts x) (h : Step s x act y) : Accounted (acts ++ [act]) y where
  backed := hx.backed_step h
  saved i e hmem := by
    rcases List.mem_append.mp hmem with hold | hnew
    · exact Nat.le_trans (hx.saved i e hold) (rank_step h i)
    · cases List.mem_singleton.mp hnew
      cases h
      rw [System.during_stage_self]
      exact Nat.le_refl 5
  failed i f hmem := by
    rcases List.mem_append.mp hmem with hold | hnew
    · obtain ⟨hrank, hnone⟩ := hx.failed i f hold
      refine ⟨Nat.le_trans hrank (rank_step h i), fun e he => ?_⟩
      rcases List.mem_append.mp he with he | he
      · exact hnone e he
      · -- a call that saves has not failed before
        cases List.mem_singleton.mp he
        cases h with
        | save changed saves =>
          rw [changed] at hrank
          simp [Stage.rank] at hrank
    · cases List.mem_singleton.mp hnew
      cases h with
      | fail fault changed fails =>
        refine ⟨by rw [System.during_stage_self]; exact Nat.le_refl 7, fun e he => ?_⟩
        rcases List.mem_append.mp he with he | he
        · -- a call that fails has not saved before
          have hrank := hx.saved i e he
          rw [changed] at hrank
          simp [Stage.rank] at hrank
        · cases List.mem_singleton.mp he
  placed i e hmem := by
    rcases List.mem_append.mp hmem with hold | hnew
    · exact List.mem_append_left _ (hx.placed i e hold)
    · cases List.mem_singleton.mp hnew
      cases h with
      | place saved =>
        have hsave := hx.backed i
        rw [saved] at hsave
        exact List.mem_append_left _ hsave
  told i v hmem := by
    rcases List.mem_append.mp hmem with hold | hnew
    · obtain ⟨e, he, hv⟩ := hx.told i v hold
      exact ⟨e, List.mem_append_left _ he, hv⟩
    · cases List.mem_singleton.mp hnew
      cases h with
      | @tell i e placed =>
        have hsave := hx.backed i
        rw [placed] at hsave
        exact ⟨e, List.mem_append_left _ hsave, rfl⟩
  answered i m o hmem := by
    rcases List.mem_append.mp hmem with hold | hnew
    · obtain ⟨e, he, hanswer⟩ := hx.answered i m o hold
      exact ⟨e, List.mem_append_left _ he, hanswer⟩
    · cases List.mem_singleton.mp hnew
      cases h with
      | answer ended =>
        have hsave := hx.backed i
        rw [ended] at hsave
        obtain ⟨e, he, hanswer⟩ := hsave
        exact ⟨e, List.mem_append_left _ he, hanswer⟩

end Accounted

theorem accounted_run {disk : Disk} (h : Run s (System.opened s disk) acts x) :
    Accounted acts x := by
  induction h with
  | nil =>
    exact ⟨fun _ => trivial, fun _ _ h => absurd h List.not_mem_nil,
      fun _ _ h => absurd h List.not_mem_nil, fun _ _ h => absurd h List.not_mem_nil,
      fun _ _ h => absurd h List.not_mem_nil, fun _ _ _ h => absurd h List.not_mem_nil⟩
  | snoc _ step ih => exact ih.step step

/-! ## Across daemons -/

/-- **What holds of everything that was done and seen so far**, when the first
daemon opened the document `base`. -/
structure Durable (s : Store) (base : Document) (acts : List Act) (x : System) : Prop where
  /-- The daemon that opens the store next has the document that was saved last. -/
  reopened : (Live.start s x.disk).1.current = lastOf base (saves acts)
  /-- The saved changes led to it, one after another. -/
  led : base.after ((saves acts).map (·.mutation)) = .ok (lastOf base (saves acts))
  /-- In memory is that document, or the one before while the last save is not in place. -/
  memory : x.live.current = lastOf base (saves acts) ∨
    ∃ i e, x.stage i = .saved e ∧ (saves acts).getLast? = some e ∧ x.live.current = e.before
  /-- A change that was answered with success was saved, and is among those that led to the
  document on disk. -/
  kept : ∀ i m o, .answer i m (.ok o) ∈ acts →
    ∃ e ∈ saves acts, .save i e ∈ acts ∧ e.mutation = m ∧ o = Live.outcome m e.after
  /-- Nothing that was seen is above what is on the disk. -/
  visible : base.version.toNat + (saves acts).length < UInt64.size →
    ∀ v ∈ seen acts, v ≤ (Live.start s x.disk).1.current.version
  /-- Nothing that was seen is below what was seen before it, by whomever and
  of whichever daemon. -/
  forward : base.version.toNat + (saves acts).length < UInt64.size →
    (seen acts).Pairwise (· ≤ ·)
  /-- No version was answered for two changes. -/
  versions : base.version.toNat + (saves acts).length < UInt64.size →
    ((successes acts).map (·.2.version)).Pairwise (· < ·)
  /-- No install number was given out to two installs that were saved. -/
  numbers : base.nextSeq.toNat + (saves acts).length < UInt64.size →
    ((saves acts).filterMap (·.number?)).Pairwise (· < ·) ∧
      (base.Numbered → (lastOf base (saves acts)).Numbered)
  /-- A save that fails leaves memory, channel and file as they are. -/
  failing : ∀ i f y, Step s x (.fail i f) y →
    y.live = x.live ∧ y.disk.entry? s.path = x.disk.entry? s.path ∧
      (Live.start s y.disk).1.current = lastOf base (saves acts)
  /-- A call whose save failed has saved nothing, put nothing in place, told
  nothing, and was not answered with success, before or after. -/
  failed : ∀ i f, .fail i f ∈ acts → (∀ e, .save i e ∉ acts) ∧ (∀ e, .place i e ∉ acts) ∧
    (∀ v, .tell i v ∉ acts) ∧ ∀ m o, .answer i m (.ok o) ∉ acts
  /-- What was put in place or told was saved before. -/
  backed : (∀ i e, .place i e ∈ acts → .save i e ∈ acts) ∧
    ∀ i v, .tell i v ∈ acts → ∃ e, .save i e ∈ acts ∧ v = e.after.version

/-- The last change of a row led on from what the others led to. -/
theorem Row.before_last {base d d' : Document} {es : List Deed} {e : Deed}
    (h : Row base es d) (hlast : es.getLast? = some e) (h' : Row base es.dropLast d') :
    d' = e.before := by
  cases h with
  | nil => cases hlast
  | snoc row next =>
    rw [List.getLast?_concat] at hlast
    cases hlast
    rw [List.dropLast_concat] at h'
    exact h'.eq_lastOf.trans row.eq_lastOf.symm

/-- In memory is what was saved last, or what was there before while the call
that saved it has yet to put it in place. -/
theorem Coherent.memory {base : Document} (hx : Coherent base acts x) :
    x.live.current = lastOf base (saves acts) ∨
      ∃ i e, x.stage i = .saved e ∧ (saves acts).getLast? = some e ∧
        x.live.current = e.before := by
  cases hunplaced : x.holding.unplaced with
  | false => exact .inl (hx.current_eq hunplaced)
  | true =>
    have hcurrent := hx.current
    have hholding := hx.holding
    rw [hunplaced] at hcurrent
    cases hlock : x.lock with
    | none =>
      rw [System.holding, hlock] at hunplaced
      cases hunplaced
    | some i =>
      have hstage : x.holding = x.stage i := by rw [System.holding, hlock]; rfl
      rw [hstage] at hunplaced hholding
      cases hsaved : x.stage i with
      | saved e =>
        rw [hsaved] at hholding
        exact .inr ⟨i, e, hsaved, hholding, hx.row.before_last hholding hcurrent⟩
      | _ =>
        rw [hsaved] at hunplaced
        cases hunplaced

/-- **Whatever the steps are and wherever the daemon ends, what was seen and
answered is on the disk, and what failed is nowhere.** -/
theorem durable_run (s : Store) (disk : Disk) (o : Option Document) {acts : List Act} {x : System}
    (hheld : s.Holds o disk) (h : Run s (System.opened s disk) acts x) :
    Durable s (o.getD {}) acts x := by
  have hbase : (System.opened s disk).live.current = o.getD {} := (Store.start_of_holds hheld).1
  have hsome : .reopen ∈ acts → ∃ o, s.Holds o disk := fun _ => ⟨o, hheld⟩
  have hx := coherent_run h hsome
  have hseen := seen_run h hsome
  have hcalls := accounted_run h
  have hholds := holds_run hheld h
  have hstart : ∀ disk, s.Holds (stored o (saves acts)) disk →
      (Live.start s disk).1.current = lastOf (o.getD {}) (saves acts) :=
    fun _ hdisk => (Store.start_of_holds hdisk).1.trans (stored_getD ..)
  rw [hbase] at hx hseen
  generalize o.getD {} = base at hx hseen hstart ⊢
  have hsaved : ∀ {i e}, .save i e ∈ acts → e ∈ saves acts := fun he =>
    List.mem_filterMap.mpr ⟨_, he, rfl⟩
  have hsuccesses : (successes acts).Sublist
      ((saves acts).map fun e => (e.mutation, e.outcome)) :=
    hx.answered.trans ((prefix_behind _ _).sublist.map _)
  refine {
    reopened := hstart _ hholds
    led := hx.row.after_eq
    memory := ?_
    kept := fun i m o hanswer => ?_
    visible := fun hroom v hv => ?_
    forward := fun hroom => (hseen hroom).1
    versions := fun hroom => ?_
    numbers := fun hroom => ⟨hx.row.numbers_rising hroom, fun hd => hx.row.numbered hd hroom⟩
    failing := fun i f y hstep => ?_
    failed := fun i f hfail => ?_
    backed := ⟨hcalls.placed, hcalls.told⟩ }
  · exact hx.memory
  · obtain ⟨e, he, rfl, rfl⟩ := hcalls.answered i m o hanswer
    exact ⟨e, hsaved he, he, rfl, rfl⟩
  · rw [hstart _ hholds]
    exact UInt64.le_trans ((hseen hroom).2 v hv) (hx.version_le_last hroom)
  · refine List.Pairwise.sublist (hsuccesses.map (·.2.version)) ?_
    rw [List.map_map]
    exact hx.row.versions_rising hroom
  · cases hstep with
    | fail fault changed fails =>
      obtain ⟨hentry, hkeeps⟩ := World.saveUnless_error fails
      exact ⟨rfl, hentry, hstart _ (hkeeps _ hholds)⟩
  · have hnone := (hcalls.failed i f hfail).2
    refine ⟨hnone, fun e he => hnone e (hcalls.placed i e he), fun v hv => ?_, fun m o ho => ?_⟩
    · obtain ⟨e, he, _⟩ := hcalls.told i v hv
      exact hnone e he
    · obtain ⟨e, he, _⟩ := hcalls.answered i m o ho
      exact hnone e he

/-- The daemon ends when a change is saved and not yet in place; the next one
has it, and fails to save another. -/
theorem durable_run_reopened :
    let s := Store.withKey ["registry.json"] "key"
    let app : AppDescriptor := { appId := "shop" }
    let hooks : Module := {
      id := "hooks"
      enabled := true
      scope := .all
      entryPoints := [{ codePath := "hooks.so" }]
      installSeq := 1 }
    let next : Document := ⟨1, 1, Keyed.empty.insert "hooks" hooks⟩
    let fault : StoreFault := .io .notADirectory
    let acts : List Act := [.call 0 (.install hooks), .lock 0, .copy 0, .change 0,
      .save 0 ⟨{}, .install hooks, next⟩, .reopen, .query 7 app 1 [hooks],
      .call 1 (.disable "hooks"), .lock 1, .copy 1, .change 1, .fail 1 fault,
      .answer 1 (.disable "hooks") (.error (.persist fault))]
    s.Holds none {} ∧ ∃ x, Run s (System.opened s {}) acts x ∧ Durable s {} acts x := by
  intro s app hooks next fault acts
  have hnext : ({} : Document).next (.install hooks) = .ok next := by
    subst next hooks
    rfl
  have happlicable : next.applicable app = [hooks] := by
    subst next hooks app
    decide +kernel
  have hdisabled : next.next (.disable "hooks")
      = .ok ⟨2, 1, Keyed.empty.insert "hooks" { hooks with enabled := false }⟩ := by
    subst next hooks
    rfl
  obtain ⟨x, hrun, hidle, hfree, hcurrent⟩ : ∃ x, Run s (System.opened s {})
      [.call 0 (.install hooks), .lock 0, .copy 0, .change 0, .save 0 ⟨{}, .install hooks, next⟩,
        .reopen] x ∧ x.stage 1 = .idle ∧ x.lock = none ∧ x.live.current = next := by
    obtain ⟨disk, hsaves⟩ : ∃ disk, s.save next {} = (.ok (), disk) := ⟨_, rfl⟩
    have hopened : (System.opened s {}).live.current = {} := rfl
    have hcalled := (@Run.nil s (System.opened s {})).snoc
      (.call (i := 0) (.install hooks) rfl)
    have hcopied := (hcalled.snoc (.lock (i := 0) rfl rfl)).snoc (.copy (i := 0) rfl)
    simp only [System.during_during, System.during_live, hopened] at hcopied
    have hchanged := hcopied.snoc (.change (i := 0) rfl hnext)
    have hsaved := (hchanged.snoc (.save (i := 0) rfl hsaves)).snoc .reopen
    exact ⟨_, hsaved, rfl, rfl, (Store.start_of_holds (Store.holds_save hsaves)).1⟩
  have hqueried := hrun.snoc (.query 7 app)
  rw [hcurrent, happlicable] at hqueried
  have hcalled := (hqueried.snoc (.call (.disable "hooks") hidle)).snoc
    (.lock System.during_stage_self hfree)
  have hcopied := hcalled.snoc (.copy System.during_stage_self)
  simp only [System.during_during, System.during_live, hcurrent] at hcopied
  have hchanged := hcopied.snoc (.change System.during_stage_self hdisabled)
  have hfailed := (hchanged.snoc (.fail (some fault) System.during_stage_self rfl)).snoc
    (.answer System.during_stage_self)
  exact ⟨rfl, _, hfailed, durable_run s {} none rfl hfailed⟩

end Interpose.Registry
