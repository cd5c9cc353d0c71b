/-
Interpose.Proofs.Registry.Watching — a watcher among overlapping changes.

`Daemon.watch` tells the version there is and starts to listen, in one go.
In the daemon these are two steps, and the steps of changes fall between
them as they fall anywhere else. The baseline is read FIRST. So a version
that is told between the two is in neither: the baseline is older, and
whoever listens from then on does not hear of it (`watch_run_missed`).

What holds nevertheless is `Faithful`. Versions come in their order, and
whoever has heard of any change since it listens is up to date once it has
taken all there is for it. Whoever has heard of none is up to date exactly
if nothing newer than its baseline had been told before it listened.

Main statement: `watch_run`.
-/
import Interpose.Proofs.Registry.Linear
import Interpose.Daemon.Service

namespace Interpose.Registry

variable {s : Store} {x y x₀ : System} {act : Act} {acts acts' : List Act} {base : Document}

/-! ## Steps -/

/-- Where the request of a watcher stands. -/
inductive Watching where
  | idle
  /-- It has read the current version and has yet to listen. -/
  | based (baseline : UInt64)
  /-- It listens. `start` is how much had been sent by then, `place` where it
  has got to, and `heard` what it has taken since. -/
  | listening (baseline : UInt64) (start place : Nat) (heard : List UInt64)

namespace Watching

/-- A step of the daemon, which goes on, or one of the watcher's request. Of
what it falls behind in, the watcher takes what is still remembered. -/
inductive Step (s : Store) (x : System) : Watching → List Act → System → Watching → Prop
  | other {w : Watching} {act : Act} {y : System} (step : Registry.Step s x act y)
      (goes : act ≠ .reopen) : Step s x w [act] y w
  | read (client : Nat) :
    Step s x .idle [.look client x.live.current] x (.based x.live.current.version)
  | listen {baseline : UInt64} :
    Step s x (.based baseline) [] x
      (.listening baseline x.live.bumps.subscribe x.live.bumps.subscribe [])
  | hear {baseline v : UInt64} {start place : Nat} {heard rest : List UInt64}
      (next : (x.live.bumps.pending place).2 = v :: rest) :
    Step s x (.listening baseline start place heard) [] x
      (.listening baseline start (place + (x.live.bumps.pending place).1 + 1) (heard ++ [v]))

/-- Steps one after another, from when nobody watches. -/
inductive Run (s : Store) (x₀ : System) : List Act → System → Watching → Prop
  | nil : Run s x₀ [] x₀ .idle
  | snoc {acts acts' : List Act} {x y : System} {w w' : Watching} (run : Run s x₀ acts x w)
      (step : Step s x w acts' y w') : Run s x₀ (acts ++ acts') y w'

/-! ### A watcher that is left alone -/

variable {w : Watching} {baseline v : UInt64} {start place : Nat} {heard : List UInt64}

/-- A watcher that is left alone takes all there is for it. -/
theorem run_hears (h : Run s x₀ acts x (.listening baseline start place heard)) :
    ∃ place', Run s x₀ acts x
        (.listening baseline start place' (heard ++ (x.live.bumps.pending place).2)) ∧
      (x.live.bumps.pending place').2 = [] := by
  generalize hrest : (x.live.bumps.pending place).2 = rest
  induction rest generalizing place heard with
  | nil => exact ⟨place, by rwa [List.append_nil], hrest⟩
  | cons v rest ih =>
    have hnext := h.snoc (.hear hrest)
    rw [List.append_nil] at hnext
    -- what is behind the item just taken is no longer too far behind
    have htail : (x.live.bumps.pending (place + (x.live.bumps.pending place).1 + 1)).2 = rest := by
      have hmissed : (x.live.bumps.pending (place + (x.live.bumps.pending place).1 + 1)).1 = 0 := by
        simp only [Broadcast.pending]
        omega
      have hdrop := congrArg List.tail hrest
      rw [Broadcast.pending, List.tail_drop] at hdrop
      rw [Broadcast.pending] at hmissed ⊢
      simp only at hmissed ⊢
      rw [hmissed]
      exact hdrop
    obtain ⟨place', hrun, hdrained⟩ := ih hnext htail
    exact ⟨place', by rwa [List.append_assoc] at hrun, hdrained⟩

/-- **A watcher that is left alone is told what `Daemon.watch` tells it, and
then what `Daemon.Watcher.versions` are.** -/
theorem run_watch (h : Run s x₀ acts x .idle) (client : Nat) (r : WatchRequest) (d : Daemon)
    (hd : d.registry = x.live) :
    ∃ place, Run s x₀ (acts ++ [.look client x.live.current]) x
        (.listening (d.watch r).1 (d.watch r).2.bumps place ((d.watch r).2.versions d)) ∧
      (x.live.bumps.pending place).2 = [] := by
  have hlisten := (h.snoc (.read client)).snoc .listen
  rw [List.append_nil] at hlisten
  obtain ⟨place, hrun, hdrained⟩ := run_hears hlisten
  refine ⟨place, ?_, hdrained⟩
  simpa [Daemon.watch, Daemon.version, Daemon.subscribe, Daemon.Watcher.versions, hd] using hrun

/-- Watching leaves the daemon alone: reading the version is a look like any other. -/
theorem registry_run (h : Run s x₀ acts x w) : Registry.Run s x₀ acts x ∧ .reopen ∉ acts := by
  induction h with
  | nil => exact ⟨.nil, List.not_mem_nil⟩
  | @snoc acts acts' x y w w' run step ih =>
    obtain ⟨hrun, hgoes⟩ := ih
    cases step with
    | other step goes =>
      refine ⟨hrun.snoc step, fun hmem => ?_⟩
      rcases List.mem_append.mp hmem with hmem | hmem
      · exact hgoes hmem
      · exact goes (List.mem_singleton.mp hmem).symm
    | read client => exact ⟨hrun.snoc (.look client), by simpa using hgoes⟩
    | listen => exact ⟨by rwa [List.append_nil], by rwa [List.append_nil]⟩
    | hear next => exact ⟨by rwa [List.append_nil], by rwa [List.append_nil]⟩

/-- The daemon goes on, and the watcher does nothing meanwhile. -/
theorem Run.others {more : List Act} (h : Run s x₀ acts x w)
    (hmore : Registry.Run s x more y) (hgoes : .reopen ∉ more) :
    Run s x₀ (acts ++ more) y w := by
  induction hmore with
  | nil => rwa [List.append_nil]
  | @snoc more y z act run step ih =>
    rw [List.mem_append, List.mem_singleton, not_or] at hgoes
    rw [← List.append_assoc]
    exact (ih hgoes.1).snoc (.other step (Ne.symm hgoes.2))

end Watching

/-! ## A change that is left alone -/

/-- The steps of a change that nobody else's fall between. -/
def deedActs (i : Nat) (e : Deed) : List Act :=
  [.call i e.mutation, .lock i, .copy i, .change i, .save i e, .place i e, .tell i e.after.version,
    .answer i e.mutation (.ok e.outcome)]

theorem run_deed {i : Nat} {e : Deed} {disk : Disk} (hidle : x.stage i = .idle)
    (hfree : x.lock = none) (hbefore : e.before = x.live.current)
    (hnext : e.before.next e.mutation = .ok e.after)
    (hsaves : s.save e.after x.disk = (.ok (), disk)) :
    Run s x (deedActs i e)
      (x.during i .gone
        { x.live with current := e.after, bumps := x.live.bumps.send e.after.version }
        disk none) := by
  obtain ⟨before, m, after⟩ := e
  subst hbefore
  have hentered := (Run.nil.snoc (Step.call (s := s) m hidle)).snoc
    (.lock System.during_stage_self hfree)
  have hcopied := hentered.snoc (.copy System.during_stage_self)
  simp only [System.during_during] at hcopied
  have hsaved := (hcopied.snoc (.change System.during_stage_self hnext)).snoc
    (.save System.during_stage_self hsaves)
  have htold := (hsaved.snoc (.place System.during_stage_self)).snoc
    (.tell System.during_stage_self)
  have hanswered := htold.snoc (.answer System.during_stage_self)
  simp only [System.during_during] at hanswered
  exact hanswered

/-! ## The channel -/

/-- All a step does to the channel is to send a version. -/
theorem bumps_step (h : Step s x act y) (hgoes : act ≠ .reopen) :
    y.live.bumps = x.live.bumps ∨
      ∃ i v, act = .tell i v ∧ y.live.bumps = x.live.bumps.send v := by
  cases h with
  | tell placed => exact .inr ⟨_, _, rfl, rfl⟩
  | reopen => exact absurd rfl hgoes
  | _ => exact .inl rfl

theorem seen_of_told {v : UInt64} (h : v ∈ told acts) : v ∈ seen acts := by
  obtain ⟨act, hact, htold⟩ := List.mem_filterMap.mp h
  refine List.mem_filterMap.mpr ⟨act, hact, ?_⟩
  cases act <;> first | exact htold | cases htold

theorem capacity_run {disk : Disk} (h : Run s (System.opened s disk) acts x)
    (hgoes : .reopen ∉ acts) : x.live.bumps.capacity = bumpCapacity := by
  induction h with
  | nil =>
    show (Live.start s disk).1.bumps.capacity = bumpCapacity
    rw [Live.start, Live.startWith]
    split <;> first | rfl | (split <;> rfl)
  | @snoc acts x y act run step ih =>
    rw [List.mem_append, List.mem_singleton, not_or] at hgoes
    rcases bumps_step step (Ne.symm hgoes.2) with hsame | ⟨i, v, -, hsent⟩
    · rw [hsame]
      exact ih hgoes.1
    · rw [hsent]
      exact ih hgoes.1

/-- What a watcher of this baseline, that began to listen at `start` and has
got to `place`, has taken from the channel. -/
structure Follows (bumps : Broadcast UInt64) (baseline : UInt64) (start place : Nat)
    (heard : List UInt64) : Prop where
  begins : start ≤ place
  within : place ≤ bumps.sent.length
  taken : heard.Sublist ((bumps.sent.take place).drop start)
  latest : heard.getLast? = ((bumps.sent.take place).drop start).getLast?
  above : ∀ v ∈ bumps.sent.drop start, baseline ≤ v

namespace Follows

variable {bumps : Broadcast UInt64} {baseline v : UInt64} {start place : Nat}
  {heard rest : List UInt64}

theorem send (hf : Follows bumps baseline start place heard) (hv : baseline ≤ v) :
    Follows (bumps.send v) baseline start place heard := by
  have htake : (bumps.send v).sent.take place = bumps.sent.take place :=
    List.take_append_of_le_length hf.within
  have hbegins : start ≤ bumps.sent.length := Nat.le_trans hf.begins hf.within
  refine ⟨hf.begins, ?_, htake ▸ hf.taken, htake ▸ hf.latest, fun u hu => ?_⟩
  · show place ≤ (bumps.sent ++ [v]).length
    rw [List.length_append]
    exact Nat.le_trans hf.within (Nat.le_add_right _ _)
  · rw [Broadcast.send, List.drop_append_of_le_length hbegins] at hu
    rcases List.mem_append.mp hu with hu | hu
    · exact hf.above u hu
    · rw [List.mem_singleton.mp hu]
      exact hv

theorem hear (hf : Follows bumps baseline start place heard)
    (hnext : (bumps.pending place).2 = v :: rest) :
    Follows bumps baseline start (place + (bumps.pending place).1 + 1) (heard ++ [v]) := by
  have hbegins := hf.begins
  -- the item that is taken, and what lies before it
  generalize hk : place + (bumps.pending place).1 = k
  have hdrop : bumps.sent.drop k = v :: rest := by
    rw [← hk]
    exact hnext
  have hlt : k < bumps.sent.length := by
    rw [← Nat.not_le]
    intro hle
    rw [List.drop_eq_nil_of_le hle] at hdrop
    cases hdrop
  have hitem : (bumps.sent.take (k + 1)).drop start
      = (bumps.sent.take k).drop start ++ [v] := by
    have hv : bumps.sent[k]? = some v := by
      rw [← List.head?_drop, hdrop]
      rfl
    rw [List.take_add_one, hv, List.drop_append_of_le_length]
    · rfl
    · rw [List.length_take]
      omega
  have hbefore : ((bumps.sent.take place).drop start).Sublist ((bumps.sent.take k).drop start) :=
    (List.take_prefix_take_left (by omega)).sublist.drop start
  refine ⟨by omega, hlt, ?_, ?_, hf.above⟩
  · rw [hitem]
    exact (hf.taken.trans hbefore).append (.refl _)
  · rw [hitem, List.getLast?_concat, List.getLast?_concat]

/-- A watcher that has taken all there is for it has got to the end: something
is always remembered. -/
theorem place_eq (hf : Follows bumps baseline start place heard) (hcapacity : 0 < bumps.capacity)
    (hdrained : (bumps.pending place).2 = []) : place = bumps.sent.length := by
  have hwithin := hf.within
  have hlength := List.drop_eq_nil_iff.mp hdrained
  omega

end Follows

/-! ## What a watcher can rely on -/

namespace Watching

variable {w : Watching} {baseline : UInt64} {start place : Nat} {heard : List UInt64}

/-- **What holds of a watcher between any two steps**: its baseline is a
version that was seen, none below that of the document the registry began
with; and what it has taken is what was sent, up to where it has got to. -/
def Sound (base : Document) (acts : List Act) (x : System) : Watching → Prop
  | idle => True
  | based baseline => baseline ∈ seen acts ∧ base.version ≤ baseline
  | listening baseline start place heard =>
    (baseline ∈ seen acts ∧ base.version ≤ baseline) ∧
      Follows x.live.bumps baseline start place heard

/-- A step of the daemon keeps this: a version that is told is not below one
that was seen before. -/
theorem Sound.other (hw : w.Sound base acts x) (h : Registry.Step s x act y)
    (hgoes : act ≠ .reopen) (hrising : (seen (acts ++ [act])).Pairwise (· ≤ ·)) :
    w.Sound base (acts ++ [act]) y := by
  have hstays : ∀ v ∈ seen acts, v ∈ seen (acts ++ [act]) := fun v hv => by
    rw [seen_append]
    exact List.mem_append_left _ hv
  cases w with
  | idle => trivial
  | based baseline => exact ⟨hstays _ hw.1, hw.2⟩
  | listening baseline start place heard =>
    obtain ⟨⟨hseen, habove⟩, hfollows⟩ := hw
    refine ⟨⟨hstays _ hseen, habove⟩, ?_⟩
    rcases bumps_step h hgoes with hsame | ⟨i, v, rfl, hsent⟩
    · rwa [hsame]
    · rw [hsent]
      rw [seen_append] at hrising
      have hlater : v ∈ seen [.tell i v] := by simp [seen, Act.seen?]
      exact hfollows.send ((List.pairwise_append.mp hrising).2.2 _ hseen v hlater)

/-- **A step of the watcher keeps this.** -/
theorem Sound.step {w' : Watching} (hw : w.Sound base acts x) (hx : Coherent base acts x)
    (h : Step s x w acts' y w') (hroom : base.version.toNat + (saves acts).length < UInt64.size)
    (hrising : (seen (acts ++ acts')).Pairwise (· ≤ ·)) : w'.Sound base (acts ++ acts') y := by
  cases h with
  | other step goes => exact hw.other step goes hrising
  | read client =>
    have hle := (prefix_behind x.holding.unplaced (saves acts)).length_le
    refine ⟨?_, ?_⟩
    · rw [seen_append]
      exact List.mem_append_right _ (by simp [seen, Act.seen?])
    · rw [UInt64.le_iff_toNat_le, hx.current.toNat_version (by omega)]
      omega
  | listen =>
    rw [List.append_nil]
    refine ⟨hw, Nat.le_refl _, Nat.le_refl _, List.nil_sublist _, ?_, ?_⟩
    · simp [Broadcast.subscribe]
    · simp [Broadcast.subscribe]
  | hear next =>
    rw [List.append_nil]
    exact ⟨hw.1, hw.2.hear next⟩

theorem sound_run {disk : Disk} (h : Run s (System.opened s disk) acts x w)
    (hroom : (System.opened s disk).live.current.version.toNat + (saves acts).length
      < UInt64.size) :
    w.Sound (System.opened s disk).live.current acts x := by
  induction h with
  | nil => trivial
  | @snoc acts acts' x y w w' run step ih =>
    obtain ⟨hrun, hgoes⟩ := registry_run run
    obtain ⟨hrun', hgoes'⟩ := registry_run (run.snoc step)
    have hrising := (seen_run hrun' (fun hmem => absurd hmem hgoes') hroom).1
    have hbefore : (System.opened s disk).live.current.version.toNat + (saves acts).length
        < UInt64.size := by
      rw [saves_append, List.length_append] at hroom
      omega
    exact (ih hbefore).step (coherent_run hrun fun hmem => absurd hmem hgoes) step hbefore hrising

end Watching

/-- **What a watcher can rely on.** -/
structure Faithful (x : System) (baseline : UInt64) (start place : Nat) (heard : List UInt64) :
    Prop where
  /-- The versions it received never decrease. -/
  rising : (baseline :: heard).Pairwise (· ≤ ·)
  /-- What it has heard was sent since it listens, in this order. -/
  taken : heard.Sublist (x.live.bumps.sent.drop start)
  /-- With nothing left for it to take, this is all that was sent, if it took
  one item for every place it moved on. -/
  complete : (x.live.bumps.pending place).2 = [] → place = start + heard.length →
    heard = x.live.bumps.sent.drop start
  /-- If moreover nobody changes the registry, the last version it received is
  the current one exactly if it has heard of any change, or nothing newer than
  its baseline had been told before it listened. -/
  settled : x.lock = none → (x.live.bumps.pending place).2 = [] →
    ((baseline :: heard).getLast? = some x.live.current.version ↔
      heard ≠ [] ∨ ∀ v ∈ x.live.bumps.sent.take start, v ≤ baseline)

/-- Between changes, the current version is the one that was told last. -/
theorem Coherent.version_eq (hx : Coherent base acts x) (hp : Prompt acts x)
    (hfree : x.lock = none) :
    x.live.current.version = x.live.bumps.sent.getLast?.getD base.version := by
  have hholding : x.holding = .idle := by rw [System.holding, hfree]; rfl
  rw [hx.current_eq (by rw [hholding]; rfl), hp.sent, hp.told, hholding, lastOf]
  show _ = ((saves acts).map (·.after.version)).getLast?.getD base.version
  rw [List.getLast?_map]
  cases (saves acts).getLast? <;> rfl

/-- **A watcher is told of every change since it listens, in order, but not of
one that falls between its baseline and that**, however the steps of the
changes fall, as long as there are versions. -/
theorem watch_run (s : Store) (disk : Disk) {acts : List Act} {x : System} {baseline : UInt64}
    {start place : Nat} {heard : List UInt64}
    (h : Watching.Run s (System.opened s disk) acts x (.listening baseline start place heard))
    (hroom : (System.opened s disk).live.current.version.toNat + (saves acts).length
      < UInt64.size) : Faithful x baseline start place heard := by
  obtain ⟨hrun, hgoes⟩ := Watching.registry_run h
  have hheld : .reopen ∈ acts → ∃ o, s.Holds o disk := fun hmem => absurd hmem hgoes
  have hx := coherent_run hrun hheld
  have hp := prompt_run hrun hgoes
  have hle := (seen_run hrun hheld hroom).2
  have hcapacity : 0 < x.live.bumps.capacity := by
    rw [capacity_run hrun hgoes]
    decide
  obtain ⟨⟨hseen, habove⟩, hfollows⟩ := Watching.sound_run h hroom
  have hversion := hx.version_eq hp
  have hsent : x.live.bumps.sent.Pairwise (· ≤ ·) := by
    rw [hp.sent, hp.told]
    have hrising := hx.row.versions_rising hroom
    exact (hrising.imp UInt64.le_of_lt).sublist ((prefix_behind _ _).map _).sublist
  have htold : ∀ v ∈ x.live.bumps.sent, v ≤ x.live.current.version :=
    fun v hv => hle v (seen_of_told (hp.sent ▸ hv))
  have htaken := hfollows.taken.trans ((List.take_sublist _ _).drop start)
  constructor
  case rising =>
    refine List.pairwise_cons.mpr ⟨fun v hv => hfollows.above v (htaken.subset hv), ?_⟩
    exact hsent.sublist (htaken.trans (List.drop_sublist _ _))
  case taken => exact htaken
  case complete =>
    intro hdrained hall
    have hplace := hfollows.place_eq hcapacity hdrained
    refine htaken.eq_of_length ?_
    rw [List.length_drop]
    omega
  case settled =>
    intro hfree hdrained
    have hlatest := hfollows.latest
    rw [hfollows.place_eq hcapacity hdrained, List.take_length, List.getLast?_drop] at hlatest
    rw [List.getLast?_cons, Option.some_inj]
    have hcurrent := hversion hfree
    split at hlatest
    case isTrue hend =>
      -- nothing was sent since it listens, and all depends on the baseline
      rw [List.getLast?_eq_none_iff.mp hlatest, List.take_of_length_le hend]
      refine ⟨fun heq => .inr fun v hv => ?_, fun hnewest => ?_⟩
      · have hbaseline : baseline = x.live.current.version := heq
        exact hbaseline ▸ htold v hv
      · refine UInt64.le_antisymm (hle _ hseen) ?_
        rw [hcurrent]
        cases hlast : x.live.bumps.sent.getLast? with
        | none => exact habove
        | some v =>
          exact (hnewest.resolve_left (absurd rfl)) v (List.mem_of_getLast? hlast)
    case isFalse hsome =>
      obtain ⟨v, hv⟩ : ∃ v, x.live.bumps.sent.getLast? = some v := by
        rw [← Option.isSome_iff_exists, List.getLast?_isSome]
        rintro hnil
        exact hsome (by rw [hnil]; exact Nat.zero_le _)
      rw [hv] at hlatest hcurrent
      refine iff_of_true ?_ (.inl ?_)
      · rw [hlatest, hcurrent]
        rfl
      · rintro rfl
        cases hlatest

/-- A module is installed while somebody watches, who is told of it. -/
theorem watch_run_told :
    let s := Store.withKey ["registry.json"] "key"
    let hooks : Module := {
      id := "hooks"
      enabled := true
      entryPoints := [{ codePath := "hooks.so" }]
      installSeq := 1 }
    let e : Deed := ⟨{}, .install hooks, ⟨1, 1, Keyed.empty.insert "hooks" hooks⟩⟩
    let acts : List Act := .look 7 {} :: deedActs 0 e
    (System.opened s {}).live.current.version.toNat + (saves acts).length < UInt64.size ∧
      ∃ x, Watching.Run s (System.opened s {}) acts x (.listening 0 0 1 [1]) ∧
        Faithful x 0 0 1 [1] := by
  intro s hooks e acts
  have hnext : ({} : Document).next (.install hooks) = .ok e.after := by
    subst e hooks
    rfl
  have hroom : (System.opened s {}).live.current.version.toNat + (saves acts).length
      < UInt64.size := by decide
  have hread := (@Watching.Run.nil s (System.opened s {})).snoc (.read 7)
  have hlisten := hread.snoc .listen
  have hdeed := hlisten.others (run_deed (i := 0) (e := e) rfl rfl rfl hnext rfl)
    (by simp [deedActs])
  have hheard := hdeed.snoc (.hear rfl)
  simp only [List.append_nil] at hheard
  exact ⟨hroom, _, hheard, watch_run s {} hheard hroom⟩

/-- The same change between the two steps of whoever begins to watch: all is
done and told, nothing is left to take, and what the watcher holds for the
current version is not. -/
theorem watch_run_missed :
    let s := Store.withKey ["registry.json"] "key"
    let hooks : Module := {
      id := "hooks"
      enabled := true
      entryPoints := [{ codePath := "hooks.so" }]
      installSeq := 1 }
    let e : Deed := ⟨{}, .install hooks, ⟨1, 1, Keyed.empty.insert "hooks" hooks⟩⟩
    ∃ x, Watching.Run s (System.opened s {}) (.look 7 {} :: deedActs 0 e) x
        (.listening 0 1 1 []) ∧
      x.lock = none ∧ (x.live.bumps.pending 1).2 = [] ∧ x.live.current.version = 1 := by
  intro s hooks e
  have hnext : ({} : Document).next (.install hooks) = .ok e.after := by
    subst e hooks
    rfl
  have hread := (@Watching.Run.nil s (System.opened s {})).snoc (.read 7)
  have hdeed := hread.others (run_deed (i := 0) (e := e) rfl rfl rfl hnext rfl)
    (by simp [deedActs])
  have hlisten := hdeed.snoc .listen
  rw [List.append_nil] at hlisten
  exact ⟨_, hlisten, rfl, rfl, rfl⟩

end Interpose.Registry
