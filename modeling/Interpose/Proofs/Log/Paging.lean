/-
Interpose.Proofs.Log.Paging — reading the log by number loses and repeats nothing.

A read answers rows in the order of their numbers, and cuts at one end or
the other: whoever reads on from a number gets the oldest rows behind it,
whoever gives none gets the newest. Which rows those are is said by rank: a
row is among the oldest if few enough are older (`mem_take_iff`).

A reader that passes on the last number it was given, until an answer is
empty, comes by every row that is still there at the end. The log may be
written and purged between two calls, because rows that come get numbers
above all that were given out (`Later`), hence above all that the reader
has passed.

Main statement: `reads_by_id`.
-/
import Mathlib.Data.List.Sort
import Interpose.Proofs.Log.Following
import Interpose.Proofs.Sorting

namespace Interpose.Log

/-! ## Ranks -/

/-- In a list in order, the first members are those with few before them. -/
theorem mem_take_iff {α : Type} {R : α → α → Prop} [DecidableRel R]
    (hR : ∀ a b, R a b → ¬R b a) {l : List α} (hl : l.Pairwise R) (n : Nat) (x : α) :
    x ∈ l.take n ↔ x ∈ l ∧ l.countP (fun y => R y x) < n := by
  by_cases hx : x ∈ l
  · obtain ⟨before, after, rfl⟩ := List.append_of_mem hx
    obtain ⟨_, hright, hbefore⟩ := List.pairwise_append.mp hl
    have hafter := (List.pairwise_cons.mp hright).1
    have hself : ¬R x x := fun h => hR x x h h
    have hcount : (before ++ x :: after).countP (fun y => R y x) = before.length := by
      have hall : before.countP (fun y => R y x) = before.length :=
        List.countP_eq_length.mpr fun y hy => decide_eq_true (hbefore y hy x List.mem_cons_self)
      have hnone : after.countP (fun y => R y x) = 0 :=
        List.countP_eq_zero.mpr fun y hy h => hR x y (hafter y hy) (of_decide_eq_true h)
      rw [List.countP_append, List.countP_cons_of_neg (by simpa using hself), hall, hnone,
        Nat.add_zero]
    rw [hcount, List.take_append]
    constructor
    · intro hmem
      refine ⟨hx, Nat.lt_of_not_le fun hle => ?_⟩
      rw [Nat.sub_eq_zero_of_le hle, List.take_zero, List.append_nil] at hmem
      exact hself (hbefore x (List.mem_of_mem_take hmem) x List.mem_cons_self)
    · rintro ⟨_, hlt⟩
      obtain ⟨k, hk⟩ := Nat.exists_eq_add_of_lt hlt
      have hone : n - before.length = k + 1 := by omega
      rw [hone, List.take_succ_cons]
      exact List.mem_append_right _ List.mem_cons_self
  · exact ⟨fun hmem => absurd (List.mem_of_mem_take hmem) hx, fun h => absurd h.1 hx⟩

/-- And the last members are those with few behind them. -/
theorem mem_drop_iff {α : Type} {R : α → α → Prop} [DecidableRel R]
    (hR : ∀ a b, R a b → ¬R b a) {l : List α} (hl : l.Pairwise R) (n : Nat) (x : α) :
    x ∈ l.drop (l.length - n) ↔ x ∈ l ∧ l.countP (fun y => R x y) < n := by
  have hflip := mem_take_iff (R := fun a b => R b a) (fun a b h => hR b a h)
    (List.pairwise_reverse.mpr hl) n x
  rwa [List.take_reverse, List.mem_reverse, List.mem_reverse, List.countP_reverse] at hflip

/-! ## Pages -/

/-- What a read answers. -/
structure Page (t : Table) (limit : UInt32) (since : Int64) (es : List LogEntry) : Prop where
  rising : es.Pairwise fun a b => a.id < b.id
  rows : ∀ e ∈ es, ∃ r ∈ t.rows, e = r.toEntry
  length : es.length = min (if limit = 0 then 200 else limit.toNat)
    (t.rows.countP fun x => since.toInt < x.id)
  /-- With a number to read on from the oldest rows behind it, and without one the newest. -/
  mem : ∀ r ∈ t.rows, r.toEntry ∈ es ↔ since.toInt < r.id ∧
    (t.rows.countP fun x => since.toInt < x.id ∧
      if 0 < since.toInt then x.id < r.id else r.id < x.id)
        < if limit = 0 then 200 else limit.toNat

namespace Table

variable {t : Table}

theorem limitOf_eq (limit : UInt32) : limitOf limit = if limit = 0 then 200 else limit.toNat := rfl

theorem Rising.toInt_id (ht : t.Rising) (hbound : t.lastId < Nat.pow 2 63) {r : Row}
    (hr : r ∈ t.rows) : r.toEntry.id.toInt = r.id :=
  Int64.toInt_ofNat_of_lt (Nat.lt_of_le_of_lt (ht.given r hr).2 hbound)

/-- Rows with numbers that can travel are told apart by what they are served as. -/
theorem Rising.eq_of_toEntry (ht : t.Rising) (hbound : t.lastId < Nat.pow 2 63) {a b : Row}
    (ha : a ∈ t.rows) (hb : b ∈ t.rows) (h : a.toEntry = b.toEntry) : a = b := by
  have hint := congrArg (fun e => e.id.toInt) h
  rw [ht.toInt_id hbound ha, ht.toInt_id hbound hb] at hint
  exact eq_of_pairwise_ne (ht.rows.imp Nat.ne_of_lt) ha hb (Int.ofNat.inj hint)

theorem select_sublist (t : Table) (n : Nat) (since : Int64) :
    (t.select n since).Sublist t.rows := by
  unfold select
  split
  · exact (List.take_sublist ..).trans List.filter_sublist
  · exact (List.drop_sublist ..).trans List.filter_sublist

theorem length_select (t : Table) (n : Nat) (since : Int64) :
    (t.select n since).length = min n (t.rows.countP fun x => since.toInt < x.id) := by
  have hcount : (t.rows.filter fun x => since.toInt < x.id).length
      = t.rows.countP fun x => since.toInt < x.id := List.countP_eq_length_filter.symm
  unfold select
  split
  · rw [List.length_take, hcount]
  · rw [List.length_drop, hcount]
    omega

/-- Rows in the order of their numbers are served in that order. -/
theorem Rising.pairwise_toEntry (ht : t.Rising) (hbound : t.lastId < Nat.pow 2 63)
    {rows : List Row} (hsub : rows.Sublist t.rows) :
    (rows.map (·.toEntry)).Pairwise fun a b => a.id < b.id := by
  have hall : (rows ++ ([] : List Committed).map (·.row)).Sublist t.rows :=
    (List.append_nil _).symm ▸ hsub
  have hentries := ht.entries hbound hall
  rwa [List.map_nil, List.append_nil] at hentries

/-- **Which rows are read is decided by their ranks.** -/
theorem Rising.mem_select (ht : t.Rising) (n : Nat) (since : Int64) (r : Row) :
    r ∈ t.select n since ↔ r ∈ t.rows ∧ since.toInt < r.id ∧
      (t.rows.countP fun x => since.toInt < x.id ∧
        if 0 < since.toInt then x.id < r.id else r.id < x.id) < n := by
  have hsorted : (t.rows.filter fun x => since.toInt < x.id).Pairwise fun a b => a.id < b.id :=
    ht.rows.filter _
  have hasymm : ∀ a b : Row, a.id < b.id → ¬b.id < a.id := fun _ _ => Nat.lt_asymm
  unfold select
  split
  next =>
    rw [mem_take_iff hasymm hsorted, List.mem_filter, List.countP_filter, and_assoc,
      decide_eq_true_eq]
    simp only [Bool.decide_and, Bool.and_comm]
  next =>
    rw [mem_drop_iff hasymm hsorted, List.mem_filter, List.countP_filter, and_assoc,
      decide_eq_true_eq]
    simp only [Bool.decide_and, Bool.and_comm]

/-- **A read answers a page.** -/
theorem Rising.page (ht : t.Rising) (hbound : t.lastId < Nat.pow 2 63) (limit : UInt32)
    (since : Int64) : Page t limit since (t.read limit since) := by
  have hsub := t.select_sublist (limitOf limit) since
  refine ⟨ht.pairwise_toEntry hbound hsub, fun e he => ?_, ?_, fun r hr => ?_⟩
  · obtain ⟨r, hr, rfl⟩ := List.mem_map.mp he
    exact ⟨r, hsub.subset hr, rfl⟩
  · rw [Table.read, List.length_map, length_select]
    rfl
  · have hmem : r.toEntry ∈ t.read limit since ↔ r ∈ t.select (limitOf limit) since := by
      refine ⟨fun h => ?_, List.mem_map_of_mem⟩
      obtain ⟨x, hx, heq⟩ := List.mem_map.mp h
      exact ht.eq_of_toEntry hbound (hsub.subset hx) hr heq ▸ hx
    rw [hmem, ht.mem_select, limitOf_eq]
    exact and_iff_right hr

/-- A limit leaves room for a row, so that an empty page says that there is none. -/
theorem not_behind_of_read_eq_nil {limit : UInt32} {since : Int64}
    (h : t.read limit since = []) : ∀ r ∈ t.rows, ¬since.toInt < r.id := by
  have hlength := t.length_select (limitOf limit) since
  have hone := one_le_limitOf limit
  rw [List.map_eq_nil_iff.mp h, List.length_nil] at hlength
  intro r hr hlt
  have hcount : t.rows.countP (fun x => since.toInt < x.id) = 0 := by omega
  exact List.countP_eq_zero.mp hcount r hr (decide_eq_true hlt)

/-- A page that was read from a number on leaves no row out up to its last one. -/
theorem Rising.mem_read (ht : t.Rising) (hbound : t.lastId < Nat.pow 2 63) {limit : UInt32}
    {since : Int64} (hsince : 0 < since.toInt) {es : List LogEntry} {last r : Row}
    (hlast : last ∈ t.rows) (h : t.read limit since = es ++ [last.toEntry]) (hr : r ∈ t.rows)
    (hlt : since.toInt < r.id) (hle : r.id ≤ last.id) : r.toEntry ∈ t.read limit since := by
  have hpage := ht.page hbound limit since
  have hranked := ((hpage.mem last hlast).mp (h ▸ List.mem_concat_self)).2
  refine (hpage.mem r hr).mpr ⟨hlt, Nat.lt_of_le_of_lt (List.countP_mono_left ?_) hranked⟩
  intro x _ hx
  simp only [if_pos hsince, decide_eq_true_eq] at hx ⊢
  exact ⟨hx.1, Nat.lt_of_lt_of_le hx.2 hle⟩

end Table

/-! ## What happens between two reads -/

/-- A batch is written, or old rows are removed. -/
inductive Change where
  | flush (es : List Event)
  | purge (cutoff : Int)

namespace Connection

variable {c : Connection} {t u : Table}

/-- A change to the log. Writing a batch may fail. -/
def change (c : Connection) : Change → Connection
  | .flush es => (database.flush es c).2
  | .purge cutoff => { c with file := { c.file with table := c.file.table.map (·.purge cutoff) } }

def changeAll (c : Connection) (changes : List Change) : Connection := changes.foldl change c

end Connection

namespace Table

variable {t u v : Table}

/-- A table that a log may have later: its rows have been there, or they have
numbers that had not been given out. -/
structure Later (t u : Table) : Prop where
  lastId : t.lastId ≤ u.lastId
  rows : ∀ r ∈ u.rows, r ∈ t.rows ∨ t.lastId < r.id

theorem Later.refl (t : Table) : Later t t := ⟨Nat.le_refl _, fun _ => .inl⟩

theorem Later.trans (h : Later t u) (h' : Later u v) : Later t v where
  lastId := Nat.le_trans h.lastId h'.lastId
  rows r hr := (h'.rows r hr).elim (h.rows r) fun hlt => .inr (Nat.lt_of_le_of_lt h.lastId hlt)

theorem later_addAll (t : Table) (es : List Event) : Later t (t.addAll es) := by
  rw [addAll_eq]
  refine ⟨Nat.le_add_right .., fun r hr => ?_⟩
  rcases List.mem_append.mp hr with hr | hr
  · exact .inl hr
  · obtain ⟨c, hc, rfl⟩ := List.mem_map.mp hr
    have hid : c.id ∈ (numbered t.lastId es).map (·.id) := List.mem_map.mpr ⟨c, hc, rfl⟩
    rw [numbered_ids, List.mem_range'] at hid
    obtain ⟨i, _, hid⟩ := hid
    have hrow : c.row.id = c.id := rfl
    exact .inr (by omega)

theorem later_purge (t : Table) (cutoff : Int) : Later t (t.purge cutoff) :=
  ⟨Nat.le_refl _, fun _ hr => .inl (List.mem_filter.mp hr).1⟩

end Table

namespace Connection

variable {c : Connection} {t : Table}

theorem change_later (ht : c.file.table = some t) (hrising : t.Rising) (change : Change) :
    ∃ u, (c.change change).file.table = some u ∧ u.Rising ∧ t.Later u := by
  cases change with
  | flush es =>
    have houtcome := flush_outcome es ht
    show ∃ u, (database.flush es c).2.file.table = some u ∧ _
    generalize database.flush es c = r at houtcome
    cases houtcome with
    | lost table spent => exact ⟨t, table, hrising, .refl t⟩
    | written table spent => exact ⟨_, table, hrising.addAll es, t.later_addAll es⟩
  | purge cutoff =>
    refine ⟨t.purge cutoff, ?_, hrising.purge cutoff, t.later_purge cutoff⟩
    rw [change, ht]
    rfl

/-- **Rows that come have numbers above all that were given out**, whatever happens. -/
theorem changeAll_later (ht : c.file.table = some t) (hrising : t.Rising)
    (changes : List Change) :
    ∃ u, (c.changeAll changes).file.table = some u ∧ u.Rising ∧ t.Later u := by
  induction changes generalizing c t with
  | nil => exact ⟨t, ht, hrising, .refl t⟩
  | cons change changes ih =>
    obtain ⟨u, hu, hrising', hlater⟩ := change_later ht hrising change
    obtain ⟨v, hv, hrising'', hlater'⟩ := ih hu hrising'
    exact ⟨v, hv, hrising'', hlater.trans hlater'⟩

end Connection

/-! ## Reading on -/

/-- A reader passes on the last number it was given until an answer is empty,
with limits of its choice, and is given these entries. -/
inductive ReadsOn : Int64 → Connection → List LogEntry → Connection → Prop
  | done {since : Int64} {c : Connection} {t : Table} {limit : UInt32}
      (table : c.file.table = some t) (empty : t.read limit since = []) : ReadsOn since c [] c
  | page {since : Int64} {c c' : Connection} {t : Table} {limit : UInt32}
      {es rest : List LogEntry} {e : LogEntry} (table : c.file.table = some t)
      (answer : t.read limit since = es ++ [e]) (meanwhile : List Change)
      (more : ReadsOn e.id (c.changeAll meanwhile) rest c') :
      ReadsOn since c (es ++ e :: rest) c'

namespace ReadsOn

variable {since : Int64} {c c' : Connection} {t u : Table} {es : List LogEntry}

/-- The log is read up to a later table. -/
theorem later (h : ReadsOn since c es c') (ht : c.file.table = some t) (hrising : t.Rising) :
    ∃ u, c'.file.table = some u ∧ u.Rising ∧ t.Later u := by
  induction h generalizing t with
  | done => exact ⟨t, ht, hrising, .refl t⟩
  | page _ _ meanwhile _ ih =>
    obtain ⟨v, hv, hrising', hlater⟩ := Connection.changeAll_later ht hrising meanwhile
    obtain ⟨u, hu, hrising'', hlater'⟩ := ih hv hrising'
    exact ⟨u, hu, hrising'', hlater.trans hlater'⟩

end ReadsOn

/-- What a reader comes by that reads on from a number until the table `u` has nothing more. -/
structure Passed (since : Int64) (es : List LogEntry) (u : Table) : Prop where
  rising : es.Pairwise fun a b => a.id < b.id
  behind : ∀ e ∈ es, since < e.id
  all : ∀ r ∈ u.rows, since.toInt < r.id → r.toEntry ∈ es

namespace Passed

variable {since : Int64} {es rest : List LogEntry} {t u : Table} {last : Row}

/-- **One page more before the others.** What is there at the end and is not
behind the page has been there when the page was read. -/
theorem page (h : Passed last.toEntry.id rest u) (ht : t.Rising) (hlater : t.Later u)
    (hbound : u.lastId < Nat.pow 2 63) (hsince : 0 < since.toInt) (hlast : last ∈ t.rows)
    {limit : UInt32} (answer : t.read limit since = es ++ [last.toEntry]) :
    Passed since (es ++ last.toEntry :: rest) u := by
  have hboundt := Nat.lt_of_le_of_lt hlater.lastId hbound
  have hpage := ht.page hboundt limit since
  have hbehind : ∀ e ∈ es ++ [last.toEntry], since < e.id := by
    intro e he
    obtain ⟨r, hr, rfl⟩ := hpage.rows e (answer ▸ he)
    rw [Int64.lt_iff_toInt_lt, ht.toInt_id hboundt hr]
    exact ((hpage.mem r hr).mp (answer ▸ he)).1
  have hrising := hpage.rising
  rw [answer] at hrising
  have hupto : ∀ e ∈ es ++ [last.toEntry], e.id ≤ last.toEntry.id := by
    intro e he
    rcases List.mem_append.mp he with he | he
    · exact Int64.le_of_lt ((List.pairwise_append.mp hrising).2.2 e he _ List.mem_cons_self)
    · rw [List.mem_singleton.mp he]
      exact Int64.le_refl _
  have hsplit : es ++ last.toEntry :: rest = (es ++ [last.toEntry]) ++ rest := by
    rw [List.append_assoc]
    rfl
  rw [hsplit]
  refine ⟨List.pairwise_append.mpr ⟨hrising, h.rising, fun a ha b hb => ?_⟩, fun e he => ?_,
    fun r hr hlt => ?_⟩
  · exact Int64.lt_of_le_of_lt (hupto a ha) (h.behind b hb)
  · rcases List.mem_append.mp he with he | he
    · exact hbehind e he
    · exact Int64.lt_trans (hbehind _ List.mem_concat_self) (h.behind e he)
  · by_cases hle : r.id ≤ last.id
    · have hold : r ∈ t.rows := (hlater.rows r hr).resolve_right fun hnew =>
        absurd (Nat.lt_of_lt_of_le hnew hle) (Nat.not_lt.mpr (ht.given last hlast).2)
      exact List.mem_append_left _
        (answer ▸ ht.mem_read hboundt hsince hlast answer hold hlt hle)
    · refine List.mem_append_right _ (h.all r hr ?_)
      rw [ht.toInt_id hboundt hlast]
      omega

end Passed

/-- **A reader passes every row that is left, and each of them once.** -/
theorem ReadsOn.passed {since : Int64} {c c' : Connection} {t u : Table} {es : List LogEntry}
    (h : ReadsOn since c es c') (hsince : 0 < since.toInt) (ht : c.file.table = some t)
    (hrising : t.Rising) (hu : c'.file.table = some u) (hbound : u.lastId < Nat.pow 2 63) :
    Passed since es u := by
  induction h generalizing t with
  | @done since c t' limit table empty =>
    rw [table] at hu
    cases hu
    exact ⟨.nil, fun _ he => (nomatch he),
      fun r hr hlt => absurd hlt (Table.not_behind_of_read_eq_nil empty r hr)⟩
  | @page since c c' t' limit es rest e table answer meanwhile more ih =>
    rw [table] at ht
    cases ht
    obtain ⟨v, hv, hrising', hlater⟩ := Connection.changeAll_later table hrising meanwhile
    obtain ⟨u', hu', _, hlater'⟩ := more.later hv hrising'
    rw [hu] at hu'
    cases hu'
    have hlater := hlater.trans hlater'
    have hboundt := Nat.lt_of_le_of_lt hlater.lastId hbound
    have hpage := hrising.page hboundt limit since
    obtain ⟨last, hlast, rfl⟩ := hpage.rows e (answer ▸ List.mem_concat_self)
    have hbehind := ((hpage.mem last hlast).mp (answer ▸ List.mem_concat_self)).1
    have hpositive : 0 < last.toEntry.id.toInt := by
      rw [hrising.toInt_id hboundt hlast]
      omega
    exact (ih hpositive hv hrising' hu).page hrising hlater hbound hsince hlast answer

/-- A reader comes to an end once the log stays as it is. -/
theorem exists_readsOn {c : Connection} {t : Table} (ht : c.file.table = some t)
    (hrising : t.Rising) (hbound : t.lastId < Nat.pow 2 63) (limit : UInt32) (since : Int64) :
    ∃ es, ReadsOn since c es c := by
  rcases List.eq_nil_or_concat (t.read limit since) with hnil | ⟨es, e, heq⟩
  · exact ⟨[], .done ht hnil⟩
  · rw [List.concat_eq_append] at heq
    have hpage := hrising.page hbound limit since
    obtain ⟨last, hlast, rfl⟩ := hpage.rows e (heq ▸ List.mem_concat_self)
    have hbehind := ((hpage.mem last hlast).mp (heq ▸ List.mem_concat_self)).1
    have hgiven := (hrising.given last hlast).2
    have hid := hrising.toInt_id hbound hlast
    obtain ⟨rest, hrest⟩ := exists_readsOn ht hrising hbound limit last.toEntry.id
    exact ⟨_, .page ht heq [] hrest⟩
termination_by (t.lastId - since.toInt).toNat
decreasing_by omega

/-- **Reading by number loses and repeats nothing.** Whatever the log holds, a
read answers a page of it: the oldest rows behind a number, or without one
the newest, as many as were asked for, in the order of their numbers. And
whoever reads on from the last number until a page is empty has been given
every row behind the first number that is left by then, exactly once and in
the order in which they were committed, whatever was written and removed
between the calls. The reader does come to an end once nothing is written. -/
theorem reads_by_id {c : Connection} {t : Table} (ht : c.file.table = some t)
    (hrising : t.Rising) :
    (t.lastId < Nat.pow 2 63 → ∀ limit since,
      Page t limit since (t.read limit since) ∧ ∃ es, ReadsOn since c es c) ∧
    ∀ since es c' u, 0 < since → ReadsOn since c es c' → c'.file.table = some u →
      u.lastId < Nat.pow 2 63 →
        es.Pairwise (fun a b => a.id < b.id) ∧
        ((u.rows.filter fun r => since.toInt < r.id).map (·.toEntry)).Sublist es ∧
        ∀ r ∈ u.rows, since.toInt < r.id → es.count r.toEntry = 1 := by
  refine ⟨fun hbound limit since => ⟨hrising.page hbound limit since,
    exists_readsOn ht hrising hbound limit since⟩, fun since es c' u hsince h hu hbound => ?_⟩
  have hpassed := h.passed (Int64.lt_iff_toInt_lt.mp hsince) ht hrising hu hbound
  have hnodup : ∀ {es : List LogEntry}, (es.Pairwise fun a b => a.id < b.id) → es.Nodup := by
    refine fun h => h.imp fun {a b} hlt heq => ?_
    rw [heq] at hlt
    exact Int64.lt_irrefl hlt
  refine ⟨hpassed.rising, ?_, fun r hr hlt =>
    List.count_eq_one_of_mem (hnodup hpassed.rising) (hpassed.all r hr hlt)⟩
  obtain ⟨u', hu', hrising', _⟩ := h.later ht hrising
  rw [hu] at hu'
  cases hu'
  have hleft := hrising'.pairwise_toEntry hbound
    (List.filter_sublist (p := fun r => decide (since.toInt < r.id)))
  have hsubset : (u.rows.filter fun r => since.toInt < r.id).map (·.toEntry) ⊆ es := by
    intro e he
    obtain ⟨r, hr, rfl⟩ := List.mem_map.mp he
    obtain ⟨hr, hlt⟩ := List.mem_filter.mp hr
    exact hpassed.all r hr (of_decide_eq_true hlt)
  have hantisymm : Std.Antisymm fun a b : LogEntry => a.id < b.id :=
    ⟨fun _ _ h h' => absurd h' (Int64.lt_asymm h)⟩
  exact List.sublist_of_subperm_of_pairwise (List.subperm_of_subset (hnodup hleft) hsubset) hleft
    hpassed.rising

/-- Rows are read one by one, and after the first one a batch is lost, another
one is written, and a row that is yet to be read is removed. -/
theorem reads_by_id_changing :
    let e (secs : Int) : Event :=
      .daemon ((DateTime.of? secs 0).getD .epoch) .registryCorruption ""
    let t : Table := Table.addAll {} [e 5, e 6, e 1, e 7]
    let c : Connection := { file := { table := some t }, faults := [some .failed] }
    let u := ((t.addAll [e 9]).purge 2000000)
    t.Rising ∧ u.rows.map (·.id) = [1, 2, 4, 5] ∧
      ∃ es c', ReadsOn 1 c es c' ∧ c'.file.table = some u ∧ es.map (·.id) = [2, 4, 5] ∧
        ∀ r ∈ u.rows, 1 < (r.id : Int) → es.count r.toEntry = 1 := by
  intro e t c u
  have hrising : t.Rising := Table.Rising.empty.addAll _
  let changes : List Change := [.flush [e 8], .flush [e 9], .purge 2000000]
  -- the pages that the reader is given, with the limits it asks for
  have hfirst : t.read 1 1 = [] ++ [(Row.ofEvent 2 (e 6)).toEntry] := by decide +kernel
  have hsecond : u.read 1 2 = [] ++ [(Row.ofEvent 4 (e 7)).toEntry] := by decide +kernel
  have hthird : u.read 0 4 = [] ++ [(Row.ofEvent 5 (e 9)).toEntry] := by decide +kernel
  have hfourth : u.read 0 5 = [] := by decide +kernel
  have hchanged : (c.changeAll changes).file.table = some u := rfl
  have hreads : ReadsOn 1 c [(Row.ofEvent 2 (e 6)).toEntry, (Row.ofEvent 4 (e 7)).toEntry,
      (Row.ofEvent 5 (e 9)).toEntry] (c.changeAll changes) :=
    .page rfl hfirst changes (.page hchanged hsecond [] (.page hchanged hthird []
      (.done hchanged hfourth)))
  have hleft : u.rows.map (·.id) = [1, 2, 4, 5] := by decide +kernel
  have honce := ((reads_by_id rfl hrising).2 1 _ _ u (by decide) hreads hchanged (by decide)).2.2
  exact ⟨hrising, hleft, _, _, hreads, hchanged, rfl, honce⟩

end Interpose.Log
