/-
Interpose.Proofs.Registry.Coherent — what overlapping changes leave true.

The lock is good for one thing: the copy that a call works on stays the
current document, up to the moment when the call itself replaces it. So
the changes that are saved follow one another, and the current document is
what they led to, or all of them but the last. `Coherent` says so; it is
kept by every turn of the call that holds the lock, and by opening the
store again, which gives what was saved last (`start_run`).

Main statement: `coherent_run`.
-/
import Interpose.Proofs.Registry.Calls

namespace Interpose.Registry

variable {s : Store} {x y : System} {act : Act} {acts : List Act}

/-- **What holds between any two steps**: the changes that were saved follow
one another; the current document is what they led to, or all but the last
while that one waits to be put in place; and the call that holds the lock
works on the current document. -/
structure Coherent (base : Document) (acts : List Act) (x : System) : Prop where
  exclusive : Exclusive x
  row : Row base (saves acts) (lastOf base (saves acts))
  current : Row base (behind x.holding.unplaced (saves acts)) x.live.current
  holding : x.holding.Coherent (saves acts) x.live.current
  answered : (successes acts).Sublist
    ((behind x.holding.unanswered (saves acts)).map fun e => (e.mutation, e.outcome))

namespace Coherent

variable {base : Document}

/-- A turn of the call that holds the lock keeps this. -/
theorem turn (hx : Coherent base acts x) (hy : Exclusive y) (h : Turn x y act) :
    Coherent base (acts ++ [act]) y := by
  obtain ⟨-, hrow, hcurrent, hholding, hanswered⟩ := id hx
  cases h with
  | quiet hsaves htold hsuccesses hlive hunplaced huntold hunanswered hrelies =>
    refine ⟨hy, ?_, ?_, ?_, ?_⟩
    · simpa [hsaves] using hrow
    · simpa [hsaves, hunplaced, hlive] using hcurrent
    · simpa [hsaves, hlive] using hrelies _ hholding
    · simpa [hsaves, hsuccesses, hunanswered] using hanswered
  | @save i e hbefore hafter hlive =>
    rw [hbefore] at hholding hcurrent hanswered
    obtain ⟨hcopy, hnext⟩ := hholding
    have hsaves : saves [.save i e] = [e] := rfl
    have hnew : Row base (saves acts ++ [e]) e.after := .snoc (hcopy ▸ hcurrent) hnext
    refine ⟨hy, ?_, ?_, ?_, ?_⟩
    · simpa [hsaves] using hnew
    · simpa [hsaves, hafter, hlive, Stage.unplaced] using hcurrent
    · simp [hsaves, hafter, Stage.Coherent]
    · simpa [hsaves, hafter, Stage.unanswered, successes] using hanswered
  | @place i e hbefore hafter hlive =>
    rw [hbefore] at hholding hanswered
    have hsaves : saves [.place i e] = [] := rfl
    have hnew := hrow
    rw [lastOf_of_getLast? hholding] at hnew
    refine ⟨hy, ?_, ?_, ?_, ?_⟩
    · simpa [hsaves] using hrow
    · simpa [hsaves, hafter, hlive, Stage.unplaced] using hnew
    · simpa [hsaves, hafter, Stage.Coherent] using hholding
    · simpa [hsaves, hafter, successes, Stage.unanswered] using hanswered
  | @tell i e hbefore hafter hlive =>
    rw [hbefore] at hholding hcurrent hanswered
    have hsaves : saves [.tell i e.after.version] = [] := rfl
    refine ⟨hy, ?_, ?_, ?_, ?_⟩
    · simpa [hsaves] using hrow
    · simpa [hsaves, hafter, hlive, Stage.unplaced] using hcurrent
    · rw [saves_append, hsaves, List.append_nil, hafter]
      exact ⟨e, hholding, rfl, rfl⟩
    · simpa [hsaves, hafter, successes, Stage.unanswered] using hanswered
  | @answer i m o hbefore hafter hlive =>
    rw [hbefore] at hholding hanswered hcurrent
    obtain ⟨e, hlast, rfl, rfl⟩ := hholding
    obtain ⟨es, hes⟩ := List.getLast?_eq_some_iff.mp hlast
    have hsaves : saves [.answer i e.mutation (.ok e.outcome)] = [] := rfl
    have hothers : (successes acts).Sublist (es.map fun e => (e.mutation, e.outcome)) := by
      simpa [hes, Stage.unanswered] using hanswered
    refine ⟨hy, ?_, ?_, ?_, ?_⟩
    · simpa [hsaves] using hrow
    · simpa [hsaves, hafter, hlive, Stage.unplaced] using hcurrent
    · rw [hafter]
      trivial
    · rw [saves_append, successes_append, hsaves, hes, hafter, List.append_nil]
      show List.Sublist _ ((es ++ [e]).map _)
      rw [List.map_append]
      exact hothers.append (.refl _)

/-- **A step keeps this.** On opening the store again, that takes the document
that was saved last. -/
theorem step (hx : Coherent base acts x) (h : Step s x act y)
    (hreopen : act = .reopen → (Live.start s x.disk).1.current = lastOf base (saves acts)) :
    Coherent base (acts ++ [act]) y := by
  by_cases hgoes : act = .reopen
  · have hstart := hreopen hgoes
    have hy := hx.exclusive.step h
    subst hgoes
    cases h
    have hsaves : saves [.reopen] = [] := rfl
    have hsuccesses : successes [.reopen] = [] := rfl
    refine ⟨hy, by simpa [hsaves] using hx.row, ?_, trivial, ?_⟩
    · rw [saves_append, hsaves, List.append_nil]
      exact hstart ▸ hx.row
    · rw [saves_append, successes_append, hsaves, hsuccesses, List.append_nil, List.append_nil]
      exact hx.answered.trans ((prefix_behind _ _).sublist.map _)
  · exact hx.turn (hx.exclusive.step h) (hx.exclusive.turns h hgoes)

/-! ### What can be seen -/

/-- The current document of a call that has put its change in place. -/
theorem current_eq (hx : Coherent base acts x) (hplaced : x.holding.unplaced = false) :
    x.live.current = lastOf base (saves acts) := by
  have hcurrent := hx.current
  rw [hplaced] at hcurrent
  exact hcurrent.eq_lastOf

/-- **What is seen is the current version**, and seeing changes nothing. -/
theorem seen_step (hx : Coherent base acts x) (h : Step s x act y) {v : UInt64}
    (hv : act.seen? = some v) :
    v = x.live.current.version ∧ y.live.current = x.live.current := by
  have hholding := hx.holding
  cases h with
  | look client =>
    cases hv
    exact ⟨rfl, rfl⟩
  | query client app =>
    cases hv
    exact ⟨rfl, rfl⟩
  | tell placed =>
    cases hv
    obtain ⟨hbefore, -⟩ := hx.exclusive.turn placed rfl
    rw [hbefore] at hholding
    refine ⟨?_, rfl⟩
    rw [hx.current_eq (by rw [hbefore]; rfl), lastOf_of_getLast? hholding]
  | @answer i m a ended =>
    cases a with
    | error f => cases hv
    | ok o =>
      cases hv
      obtain ⟨hbefore, -⟩ := hx.exclusive.turn ended rfl
      rw [hbefore] at hholding
      obtain ⟨e, hlast, -, rfl⟩ := hholding
      refine ⟨?_, rfl⟩
      rw [hx.current_eq (by rw [hbefore]; rfl), lastOf_of_getLast? hlast]
      rfl
  | _ => cases hv

/-- A step leaves the current document, or replaces it by the one that was saved last. -/
theorem current_step (hx : Coherent base acts x) (h : Step s x act y)
    (hreopen : act = .reopen → (Live.start s x.disk).1.current = lastOf base (saves acts)) :
    y.live.current = x.live.current ∨ y.live.current = lastOf base (saves acts) := by
  cases h with
  | place saved =>
    have hholding := hx.holding
    rw [(hx.exclusive.turn saved rfl).1] at hholding
    exact .inr (lastOf_of_getLast? hholding).symm
  | reopen => exact .inr (hreopen rfl)
  | _ => exact .inl rfl

/-- The current version is not above that of the document that was saved last. -/
theorem version_le_last (hx : Coherent base acts x)
    (hroom : base.version.toNat + (saves acts).length < UInt64.size) :
    x.live.current.version ≤ (lastOf base (saves acts)).version := by
  have hle := (prefix_behind x.holding.unplaced (saves acts)).length_le
  rw [UInt64.le_iff_toNat_le, hx.current.toNat_version (by omega), hx.row.toNat_version hroom]
  omega

/-- **No version that was seen is above the current one, and none below one that
was seen before it.** -/
theorem seen_step_rising (hx : Coherent base acts x) (h : Step s x act y)
    (hreopen : act = .reopen → (Live.start s x.disk).1.current = lastOf base (saves acts))
    (hroom : base.version.toNat + (saves acts).length < UInt64.size)
    (hseen : (seen acts).Pairwise (· ≤ ·) ∧ ∀ v ∈ seen acts, v ≤ x.live.current.version) :
    (seen (acts ++ [act])).Pairwise (· ≤ ·) ∧
      ∀ v ∈ seen (acts ++ [act]), v ≤ y.live.current.version := by
  obtain ⟨hrising, hbelow⟩ := hseen
  have hle : x.live.current.version ≤ y.live.current.version := by
    rcases hx.current_step h hreopen with hsame | hlast
    · rw [hsame]
      exact UInt64.le_refl _
    · rw [hlast]
      exact hx.version_le_last hroom
  cases hact : act.seen? with
  | none =>
    have hnone : seen [act] = [] := by simp [seen, hact]
    rw [seen_append, hnone, List.append_nil]
    exact ⟨hrising, fun v hv => UInt64.le_trans (hbelow v hv) hle⟩
  | some v =>
    have hsome : seen [act] = [v] := by simp [seen, hact]
    obtain ⟨rfl, hsame⟩ := hx.seen_step h hact
    rw [seen_append, hsome]
    refine ⟨List.pairwise_append.mpr ⟨hrising, List.pairwise_singleton _ _, ?_⟩, ?_⟩
    · intro u hu w hw
      rw [List.mem_singleton.mp hw]
      exact hbelow u hu
    · intro u hu
      rw [hsame]
      rcases List.mem_append.mp hu with hu | hu
      · exact hbelow u hu
      · rw [List.mem_singleton.mp hu]
        exact UInt64.le_refl _

end Coherent

/-! ## A whole run -/

/-- What is in the store after some saves. -/
def stored (o : Option Document) (es : List Deed) : Option Document :=
  (es.getLast?.map (·.after)).or o

theorem stored_getD (o : Option Document) (es : List Deed) :
    (stored o es).getD {} = lastOf (o.getD {}) es := by
  rw [stored, lastOf]
  cases es.getLast? <;> rfl

/-- **The store holds what was saved last**, whatever else happened. -/
theorem holds_run {disk : Disk} {o : Option Document} (hheld : s.Holds o disk)
    (h : Run s (System.opened s disk) acts x) : s.Holds (stored o (saves acts)) x.disk := by
  induction h with
  | nil =>
    show s.Holds o (Live.start s disk).2
    rw [(Store.start_of_holds hheld).2.2]
    exact hheld
  | @snoc acts x y act run step ih =>
    rw [saves_append]
    cases step with
    | save changed saves =>
      rw [stored, show Registry.saves [Act.save _ _] = [_] from rfl, List.getLast?_concat]
      exact Store.holds_save saves
    | fail fault changed fails =>
      rw [show saves [Act.fail _ _] = [] from rfl, List.append_nil]
      exact (World.saveUnless_error fails).2 _ ih
    | reopen =>
      show s.Holds _ (Live.start s x.disk).2
      rw [(Store.start_of_holds ih).2.2, show saves [Act.reopen] = [] from rfl, List.append_nil]
      exact ih
    | _ => simpa [saves] using ih

theorem coherent_opened (s : Store) (disk : Disk) :
    Coherent (System.opened s disk).live.current [] (System.opened s disk) :=
  ⟨exclusive_opened s disk, .nil, .nil, trivial, List.Sublist.refl _⟩

/-- What is opened is what was saved last, as long as something sound was there
to begin with. -/
theorem start_run {disk : Disk} {o : Option Document} (hheld : s.Holds o disk)
    (h : Run s (System.opened s disk) acts x) :
    (Live.start s x.disk).1.current
      = lastOf (System.opened s disk).live.current (saves acts) := by
  rw [(Store.start_of_holds (holds_run hheld h)).1, stored_getD,
    show (System.opened s disk).live.current = _ from (Store.start_of_holds hheld).1]

/-- **Between any two steps, the call that holds the lock works on the current
document.** If the daemon ends on the way, something sound must have been in
the store to begin with. -/
theorem coherent_run {disk : Disk} (h : Run s (System.opened s disk) acts x)
    (hheld : .reopen ∈ acts → ∃ o, s.Holds o disk) :
    Coherent (System.opened s disk).live.current acts x := by
  induction h with
  | nil => exact coherent_opened s disk
  | @snoc acts x y act run step ih =>
    refine (ih fun hmem => hheld (List.mem_append_left _ hmem)).step step ?_
    rintro rfl
    obtain ⟨o, ho⟩ := hheld List.mem_concat_self
    exact start_run ho run

/-- **No version that was seen is above the current one, and none below one that
was seen before it**, as long as there are versions. -/
theorem seen_run {disk : Disk} (h : Run s (System.opened s disk) acts x)
    (hheld : .reopen ∈ acts → ∃ o, s.Holds o disk)
    (hroom : (System.opened s disk).live.current.version.toNat + (saves acts).length
      < UInt64.size) :
    (seen acts).Pairwise (· ≤ ·) ∧ ∀ v ∈ seen acts, v ≤ x.live.current.version := by
  induction h with
  | nil => exact ⟨.nil, fun v hv => absurd hv List.not_mem_nil⟩
  | @snoc acts x y act run step ih =>
    have hheld' : .reopen ∈ acts → ∃ o, s.Holds o disk :=
      fun hmem => hheld (List.mem_append_left _ hmem)
    rw [saves_append, List.length_append] at hroom
    refine (coherent_run run hheld').seen_step_rising step ?_ (by omega) (ih hheld' (by omega))
    rintro rfl
    obtain ⟨o, ho⟩ := hheld List.mem_concat_self
    exact start_run ho run

end Interpose.Registry
