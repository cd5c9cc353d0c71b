/-
Interpose.Proofs.Registry.Linear — overlapping changes have an order.

However the steps of changes and of readers fall, as long as the daemon
goes on, there is one order of the changes that were made: their answers
are what they would have been had they been made in this order, one after
another, each answered before the next began; and whoever looks sees what
the first of them, up to some point, have led to. The order is that of the
saves, which is that of the answers, and the versions number it.

Answers and broadcasts may be behind the saves by one, and are not when
nobody holds the lock (`Prompt`).

Main statement: `linear_run`.
-/
import Interpose.Proofs.Registry.Coherent

namespace Interpose.Registry

variable {s : Store} {x y : System} {act : Act} {acts : List Act} {base : Document}

/-! ## Parts of a row -/

namespace Row

variable {d d' : Document} {es : List Deed}

/-- The first changes of a row are a row. -/
theorem take (h : Row d es d') {k : Nat} (hk : k ≤ es.length) :
    ∃ d₁, Row d (es.take k) d₁ := by
  induction h with
  | nil => exact ⟨d, by rw [List.take_nil]; exact .nil⟩
  | @snoc es d₁ d₂ m row next ih =>
    by_cases hlast : k ≤ es.length
    · obtain ⟨d₃, h₃⟩ := ih hlast
      exact ⟨d₃, by rwa [List.take_append_of_le_length hlast]⟩
    · rw [List.length_append, List.length_singleton] at hk
      refine ⟨d₂, ?_⟩
      rw [List.take_of_length_le (by rw [List.length_append, List.length_singleton]; omega)]
      exact row.snoc next

/-- Each change of a row leads on from those before it. -/
theorem getElem? (h : Row d es d') {k : Nat} {e : Deed} (he : es[k]? = some e) :
    Row d (es.take (k + 1)) e.after := by
  have hk : k < es.length := (List.getElem?_eq_some_iff.mp he).1
  obtain ⟨d₁, h₁⟩ := h.take (k := k + 1) hk
  have hlast : (es.take (k + 1)).getLast? = some e := by
    rw [List.getLast?_take, if_neg (by omega), Nat.add_sub_cancel, he]
    rfl
  have hd₁ := h₁.eq_lastOf
  rw [lastOf_of_getLast? hlast] at hd₁
  exact hd₁ ▸ h₁

end Row

/-! ## Readers -/

/-- What a reader was shown is this document, or was made of it. -/
def Act.Shows (d : Document) : Act → Prop
  | .look _ d' => d' = d
  | .query _ app v ms => v = d.version ∧ ms = d.applicable app
  | _ => True

/-- **A reader is shown what the first changes have led to.** -/
theorem shows_run {disk : Disk} (h : Run s (System.opened s disk) acts x)
    (hgoes : .reopen ∉ acts) (hact : act ∈ acts) :
    ∃ k ≤ (saves acts).length, ∃ d,
      Row (System.opened s disk).live.current ((saves acts).take k) d ∧ act.Shows d := by
  induction h with
  | nil => exact absurd hact List.not_mem_nil
  | @snoc acts x y new run step ih =>
    have hbefore : .reopen ∉ acts := fun hmem => hgoes (List.mem_append_left _ hmem)
    rw [saves_append, List.length_append]
    rcases List.mem_append.mp hact with hold | hnew
    · obtain ⟨k, hk, d, hrow, hshows⟩ := ih hbefore hold
      refine ⟨k, by omega, d, ?_, hshows⟩
      rwa [List.take_append_of_le_length hk]
    · -- a new reader is shown the current document
      rw [List.mem_singleton.mp hnew]
      have hx := coherent_run run fun hmem => absurd hmem hbefore
      have hshows : new.Shows x.live.current := by
        cases step with
        | look client => exact rfl
        | query client app => exact ⟨rfl, rfl⟩
        | _ => trivial
      have hbehind := prefix_behind x.holding.unplaced (saves acts)
      have hle := hbehind.length_le
      refine ⟨_, Nat.le_trans hle (Nat.le_add_right _ _), x.live.current, ?_, hshows⟩
      rw [List.take_append_of_le_length hle, ← List.prefix_iff_eq_take.mp hbehind]
      exact hx.current

/-! ## Answers and broadcasts -/

/-- Versions are told and answers given in the order of the saves, and at
most the last save has yet to be told or answered. -/
structure Prompt (acts : List Act) (x : System) : Prop where
  sent : x.live.bumps.sent = told acts
  told : told acts = (behind x.holding.untold (saves acts)).map (·.after.version)
  answered : successes acts
    = (behind x.holding.unanswered (saves acts)).map fun e => (e.mutation, e.outcome)

namespace Prompt

/-- **A turn of the call that holds the lock keeps this.** -/
theorem turn (hp : Prompt acts x) (hx : Coherent base acts x) (h : Turn x y act) :
    Prompt (acts ++ [act]) y := by
  obtain ⟨hsent, htold, hanswered⟩ := id hp
  have hholding := hx.holding
  cases h with
  | quiet hsaves hnone hsuccesses hlive _ huntold hunanswered _ =>
    refine ⟨?_, ?_, ?_⟩
    · simpa [hnone, hlive] using hsent
    · simpa [hsaves, hnone, huntold] using htold
    · simpa [hsaves, hsuccesses, hunanswered] using hanswered
  | @save i e hbefore hafter hlive =>
    rw [hbefore] at htold hanswered
    have hsaves : saves [.save i e] = [e] := rfl
    refine ⟨?_, ?_, ?_⟩
    · simpa [hlive, Registry.told] using hsent
    · simpa [hsaves, hafter, Stage.untold, Registry.told] using htold
    · simpa [hsaves, hafter, Stage.unanswered, successes] using hanswered
  | @place i e hbefore hafter hlive =>
    rw [hbefore] at htold hanswered
    have hsaves : saves [.place i e] = [] := rfl
    refine ⟨?_, ?_, ?_⟩
    · simpa [hlive, Registry.told] using hsent
    · simpa [hsaves, hafter, Stage.untold, Registry.told] using htold
    · simpa [hsaves, hafter, Stage.unanswered, successes] using hanswered
  | @tell i e hbefore hafter hlive =>
    rw [hbefore] at hholding htold hanswered
    obtain ⟨es, hes⟩ := List.getLast?_eq_some_iff.mp hholding
    have hsaves : saves [.tell i e.after.version] = [] := rfl
    have hnew : Registry.told [.tell i e.after.version] = [e.after.version] := rfl
    have hothers : Registry.told acts = es.map (·.after.version) := by
      simpa [hes, Stage.untold] using htold
    refine ⟨?_, ?_, ?_⟩
    · rw [told_append, hnew, ← hsent, hlive]
      rfl
    · simp [hsaves, hnew, hes, hothers, hafter, Stage.untold]
    · simpa [hsaves, hafter, Stage.unanswered, successes] using hanswered
  | @answer i m o hbefore hafter hlive =>
    rw [hbefore] at hholding htold hanswered
    obtain ⟨e, hlast, rfl, rfl⟩ := hholding
    obtain ⟨es, hes⟩ := List.getLast?_eq_some_iff.mp hlast
    have hsaves : saves [.answer i e.mutation (.ok e.outcome)] = [] := rfl
    have hothers : successes acts = es.map fun e => (e.mutation, e.outcome) := by
      simpa [hes, Stage.unanswered] using hanswered
    refine ⟨?_, ?_, ?_⟩
    · simpa [hlive, Registry.told] using hsent
    · simpa [hsaves, hafter, Stage.untold, Registry.told] using htold
    · rw [saves_append, successes_append, hsaves, hes, hafter, List.append_nil, hothers]
      show _ ++ [(e.mutation, e.outcome)] = (es ++ [e]).map _
      rw [List.map_append]
      rfl

end Prompt

theorem prompt_run {disk : Disk} (h : Run s (System.opened s disk) acts x)
    (hgoes : .reopen ∉ acts) : Prompt acts x := by
  induction h with
  | nil =>
    refine ⟨?_, rfl, rfl⟩
    show (Live.start s disk).1.bumps.sent = []
    rw [Live.start, Live.startWith]
    split <;> first | rfl | (split <;> rfl)
  | @snoc acts x y act run step ih =>
    have hbefore : .reopen ∉ acts := fun hmem => hgoes (List.mem_append_left _ hmem)
    have hx := coherent_run run fun hmem => absurd hmem hbefore
    refine (ih hbefore).turn hx (hx.exclusive.turns step ?_)
    rintro rfl
    exact hgoes List.mem_concat_self

/-! ## One order -/

/-- **One order of the changes that explains all that could be seen**, when
the registry began with the document `base`. -/
structure Linear (base : Document) (order : List (Mutation × MutationOutcome)) (acts : List Act)
    (x : System) : Prop where
  /-- Each change answers what it would have answered, had the changes been
  made in this order, one after another. -/
  outcomes : ∀ k m o, order[k]? = some (m, o) →
    ∃ d, base.after ((order.take (k + 1)).map (·.1)) = .ok d ∧ o = Live.outcome m d
  /-- The versions follow one another. -/
  versions : order.map (·.2.version)
    = (List.range order.length).map fun k => base.version + UInt64.ofNat (k + 1)
  /-- The changes that were answered are the first ones, in this order. -/
  answered : successes acts <+: order
  /-- What was sent to those who listen are the versions of the first changes, in this order. -/
  sent : x.live.bumps.sent <+: order.map (·.2.version)
  /-- Nothing is behind when nobody holds the lock: all changes were answered
  and told, and the document is what they led to. -/
  settled : x.lock = none → successes acts = order ∧
    x.live.bumps.sent = order.map (·.2.version) ∧
    base.after (order.map (·.1)) = .ok x.live.current
  /-- Whoever looked was shown what the first changes led to, which has their number as its
  version. -/
  looks : ∀ c d, .look c d ∈ acts → ∃ k ≤ order.length,
    base.after ((order.take k).map (·.1)) = .ok d ∧ d.version = base.version + UInt64.ofNat k
  /-- So was whoever asked for the modules of a process. -/
  queries : ∀ c app v ms, .query c app v ms ∈ acts → ∃ k ≤ order.length, ∃ d,
    base.after ((order.take k).map (·.1)) = .ok d ∧
      v = base.version + UInt64.ofNat k ∧ ms = d.applicable app
  /-- As long as there are versions, no two changes have the same one, later
  ones are above earlier ones, and no one ever sees a version below one that
  was seen before. -/
  rising : base.version.toNat + order.length < UInt64.size →
    (order.map (·.2.version)).Pairwise (· < ·) ∧ (seen acts).Pairwise (· ≤ ·)

/-- **Overlapping changes have an order**, whatever the steps of any number of
calls and readers are, as long as the daemon goes on. -/
theorem linear_run (s : Store) (disk : Disk) {acts : List Act} {x : System}
    (h : Run s (System.opened s disk) acts x) (hgoes : .reopen ∉ acts) :
    ∃ order, Linear (System.opened s disk).live.current order acts x := by
  have hheld : .reopen ∈ acts → ∃ o, s.Holds o disk := fun hmem => absurd hmem hgoes
  have hx := coherent_run h hheld
  have hp := prompt_run h hgoes
  have hseen := seen_run h hheld
  have hshows := fun act (hact : act ∈ acts) => shows_run h hgoes hact
  generalize (System.opened s disk).live.current = base at hx hseen hshows ⊢
  have hmutations : ∀ es : List Deed,
      (es.map fun e => (e.mutation, e.outcome)).map (·.1) = es.map (·.mutation) := by simp
  have hversions : ((saves acts).map fun e => (e.mutation, e.outcome)).map (·.2.version)
      = (saves acts).map (·.after.version) := by
    rw [List.map_map]
    rfl
  refine ⟨(saves acts).map fun e => (e.mutation, e.outcome), ?_⟩
  constructor
  case outcomes =>
    intro k m o hk
    rw [List.getElem?_map] at hk
    obtain ⟨e, he, heq⟩ := Option.map_eq_some_iff.mp hk
    cases heq
    refine ⟨e.after, ?_, rfl⟩
    rw [← List.map_take, hmutations]
    exact (hx.row.getElem? he).after_eq
  case versions =>
    rw [hversions, List.length_map]
    exact hx.row.versions
  case answered =>
    rw [hp.answered]
    exact (prefix_behind _ _).map _
  case sent =>
    rw [hp.sent, hp.told, hversions]
    exact (prefix_behind _ _).map _
  case settled =>
    intro hfree
    have hholding : x.holding = .idle := by rw [System.holding, hfree]; rfl
    have hcurrent := hx.current
    rw [hp.sent, hp.told, hp.answered, hversions, hmutations, hholding]
    rw [hholding] at hcurrent
    exact ⟨rfl, rfl, hcurrent.after_eq⟩
  case looks =>
    intro c d hlook
    obtain ⟨k, hk, d', hrow, rfl⟩ := hshows _ hlook
    refine ⟨k, by simpa using hk, ?_, ?_⟩
    · rw [← List.map_take, hmutations]
      exact hrow.after_eq
    · rw [hrow.version, List.length_take, Nat.min_eq_left hk]
  case queries =>
    intro c app v ms hquery
    obtain ⟨k, hk, d, hrow, rfl, rfl⟩ := hshows _ hquery
    refine ⟨k, by simpa using hk, d, ?_, ?_, rfl⟩
    · rw [← List.map_take, hmutations]
      exact hrow.after_eq
    · rw [hrow.version, List.length_take, Nat.min_eq_left hk]
  case rising =>
    intro hroom
    rw [List.length_map] at hroom
    rw [hversions]
    exact ⟨hx.row.versions_rising hroom, (hseen hroom).1⟩

/-- Two calls overlap, of which the second is refused, and a client looks at
the registry before, between and after the steps of the first. -/
theorem linear_run_overlapping :
    let s := Store.withKey ["registry.json"] "key"
    let app : AppDescriptor := { appId := "shop" }
    let hooks : Module := {
      id := "hooks"
      enabled := true
      scope := .all
      entryPoints := [{ codePath := "hooks.so" }]
      installSeq := 1 }
    let next : Document := ⟨1, 1, Keyed.empty.insert "hooks" hooks⟩
    let acts : List Act := [.call 1 (.enable "other"), .call 0 (.install hooks), .lock 0, .copy 0,
      .query 7 app 0 [], .change 0, .save 0 ⟨{}, .install hooks, next⟩, .look 7 {},
      .place 0 ⟨{}, .install hooks, next⟩, .query 7 app 1 [hooks], .tell 0 1,
      .answer 0 (.install hooks) (.ok ⟨1, some hooks⟩), .lock 1, .copy 1, .refuse 1,
      .answer 1 (.enable "other") (.error (.refused (.unknownModule "other")))]
    .reopen ∉ acts ∧ ∃ x, Run s (System.opened s {}) acts x ∧
      ∃ order, Linear (System.opened s {}).live.current order acts x := by
  intro s app hooks next acts
  have hnext : ({} : Document).next (.install hooks) = .ok next := by
    subst next hooks
    rfl
  have hunknown : next.next (.enable "other") = .error (.unknownModule "other") := by
    subst next hooks
    rfl
  have hopened : (System.opened s {}).live.current = {} := rfl
  have hnone : ({} : Document).applicable app = [] := List.mergeSort_nil
  have houtcome : Deed.outcome ⟨{}, .install hooks, next⟩ = ⟨1, some hooks⟩ := by
    subst next hooks
    rfl
  have happlicable : next.applicable app = [hooks] := by
    subst next hooks app
    decide +kernel
  have hwaiting := (@Run.nil s (System.opened s {})).snoc
    (.call (i := 1) (.enable "other") rfl)
  have hcalled := hwaiting.snoc (.call (i := 0) (.install hooks) rfl)
  have hcopied := (hcalled.snoc (.lock (i := 0) rfl rfl)).snoc (.copy (i := 0) rfl)
  simp only [System.during_during] at hcopied
  have hchanged := (hcopied.snoc (.query 7 app)).snoc (.change (i := 0) rfl hnext)
  have hsaved := (hchanged.snoc (.save (i := 0) rfl rfl)).snoc (.look 7)
  simp only [System.during_during, System.during_live, hopened, hnone] at hsaved
  have hplaced := (hsaved.snoc (.place (i := 0) rfl)).snoc (.query 7 app)
  simp only [System.during_during, System.during_live, happlicable] at hplaced
  have hanswered := (hplaced.snoc (.tell (i := 0) rfl)).snoc (.answer (i := 0) rfl)
  simp only [System.during_during, houtcome] at hanswered
  have hentered := (hanswered.snoc (.lock (i := 1) rfl rfl)).snoc (.copy (i := 1) rfl)
  have hrefused := (hentered.snoc (.refuse (i := 1) rfl hunknown)).snoc (.answer (i := 1) rfl)
  have hgoes : .reopen ∉ acts := by simp [acts]
  simp only [List.nil_append, List.cons_append] at hrefused
  exact ⟨hgoes, _, hrefused, linear_run s {} hrefused hgoes⟩

end Interpose.Registry
