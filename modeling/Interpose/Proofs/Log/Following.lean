/-
Interpose.Proofs.Log.Following — whoever follows the log sees every row once.

A client that follows the log listens first, then reads what is there and
prints it, and from then on prints what it hears unless it is numbered no
higher than what it has printed. Events are published and written meanwhile:
a row may have been committed before the client listens and be told of
after, or be told of before the client reads. Such rows are in both, and no
row is in neither.

The one number that a follower keeps is enough to tell which are which. Rows
that are read are numbered up to the last number given out, and rows that
are committed later above it (`Table.Rising`, `Pipeline.Ready.id_eq`); and
what is told keeps the order of what is committed, so that every place in
the stream has its number (`Listener.Heard`).

Main statement: `Listener.run_followed`.
-/
import Mathlib.Data.List.Induction
import Interpose.Proofs.Control.Act
import Interpose.Proofs.Log.Pipeline

namespace Interpose.Log

open Control (Follower Manager)

/-! ## Tables -/

/-- The rows are in the order of their numbers, and these have been given out. -/
structure Table.Rising (t : Table) : Prop where
  rows : t.rows.Pairwise fun a b => a.id < b.id
  given : ∀ r ∈ t.rows, 1 ≤ r.id ∧ r.id ≤ t.lastId

namespace Table

variable {t : Table}

theorem Rising.empty : Rising {} := ⟨.nil, fun _ h => nomatch h⟩

theorem Rising.add (ht : t.Rising) (e : Event) : (t.add e).Rising where
  rows := List.pairwise_append.mpr ⟨ht.rows, List.pairwise_singleton .., fun a ha b hb => by
    cases List.mem_singleton.mp hb
    exact Nat.lt_succ_of_le (ht.given a ha).2⟩
  given r hr := by
    rcases List.mem_append.mp hr with hr | hr
    · exact ⟨(ht.given r hr).1, Nat.le_succ_of_le (ht.given r hr).2⟩
    · cases List.mem_singleton.mp hr
      exact ⟨Nat.succ_pos _, Nat.le_refl _⟩

theorem Rising.addAll (ht : t.Rising) (es : List Event) : (t.addAll es).Rising := by
  induction es generalizing t with
  | nil => exact ht
  | cons e es ih => exact ih (ht.add e)

/-- Removing rows frees no numbers. -/
theorem Rising.purge (ht : t.Rising) (cutoff : Int) : (t.purge cutoff).Rising :=
  ⟨ht.rows.filter _, fun r hr => ht.given r (List.mem_filter.mp hr).1⟩

/-- A limit stands for at least one row. -/
theorem one_le_limitOf (limit : UInt32) : 1 ≤ limitOf limit := by
  rw [limitOf]
  split
  next => decide
  next h =>
    have hne : limit.toNat ≠ 0 := fun hzero => h (UInt32.toNat_inj.mp hzero)
    omega

/-- The newest rows, as many as a limit stands for. -/
def newest (t : Table) (limit : UInt32) : List Row := t.rows.drop (t.rows.length - limitOf limit)

theorem newest_sublist (t : Table) (limit : UInt32) : (t.newest limit).Sublist t.rows :=
  List.drop_sublist ..

/-- The last row is among the newest. -/
theorem getLast?_newest (t : Table) (limit : UInt32) :
    (t.newest limit).getLast? = t.rows.getLast? := by
  have hone := one_le_limitOf limit
  rw [newest, List.getLast?_drop]
  split
  next h => rw [List.length_eq_zero_iff.mp (by omega : t.rows.length = 0)]; rfl
  next => rfl

/-- Whoever gives no number reads the newest rows. -/
theorem Rising.read (ht : t.Rising) (limit : UInt32) :
    t.read limit 0 = (t.newest limit).map (·.toEntry) := by
  have hall : t.rows.filter (fun r => decide ((0 : Int64).toInt < r.id)) = t.rows := by
    refine List.filter_eq_self.mpr fun r hr => ?_
    have hpos := (ht.given r hr).1
    have hzero : (0 : Int64).toInt = 0 := rfl
    rw [hzero, decide_eq_true_eq]
    omega
  rw [Table.read, select, hall]
  rfl

end Table

/-! ## What is committed, and what is told of it -/

/-- What a row is heard as. -/
def Committed.entry (c : Committed) : LogEntry := c.event.toEntry (Int64.ofNat c.id)

namespace Pipeline

variable {n k f : Nat} {t : Table} {p : Pipeline}

theorem store_grows (p : Pipeline) (last : Bool) :
    committed p.batches <+: committed (p.store last).batches ∧
      p.writer.live.sent <+: (p.store last).writer.live.sent := by
  have hsent : (p.store last).writer.live.sent = p.writer.live.sent := by rw [writer_store]
  refine ⟨?_, hsent ▸ List.prefix_rfl⟩
  rw [committed_store]
  exact List.prefix_append ..

/-- Rows are committed behind those there are, and told of behind those that were told of. -/
theorem step_grows (p : Pipeline) (m : Move) :
    committed p.batches <+: committed (p.step m).batches ∧
      p.writer.live.sent <+: (p.step m).writer.live.sent := by
  have hself : committed p.batches <+: committed p.batches ∧
      p.writer.live.sent <+: p.writer.live.sent := ⟨List.prefix_rfl, List.prefix_rfl⟩
  cases m with
  | publish e =>
    rw [step]
    split <;> exact hself
  | close => exact hself
  | receive =>
    rw [step]
    split
    next =>
      rw [Pipeline.receive]
      split
      next e queue _ =>
        dsimp only
        split
        next => exact store_grows { p with queue, writer := p.writer.gather e } false
        next => exact hself
      next =>
        split
        next => exact hself
        next => exact p.store_grows true
    next => exact hself
  | tick =>
    rw [step]
    split
    next => exact p.store_grows false
    next => exact hself
  | tell =>
    rw [step]
    split
    next => exact ⟨List.prefix_rfl, List.prefix_append ..⟩
    all_goals exact hself

theorem run_grows (p : Pipeline) (ms : List Move) :
    committed p.batches <+: committed (p.run ms).batches ∧
      p.writer.live.sent <+: (p.run ms).writer.live.sent := by
  induction ms generalizing p with
  | nil => exact ⟨List.prefix_rfl, List.prefix_rfl⟩
  | cons m ms ih =>
    obtain ⟨hrows, hsent⟩ := p.step_grows m
    obtain ⟨hrows', hsent'⟩ := ih (p.step m)
    exact ⟨hrows.trans hrows', hsent.trans hsent'⟩

/-- The table has the rows there were, and behind them those that are committed. -/
theorem Ready.table_eq (h : Ready n k f t p) : p.writer.behind.file.table = some {
    rows := t.rows ++ (committed p.batches).map (·.row)
    lastId := t.lastId + (committed p.batches).length } := h.accounted.table

theorem Ready.rising (h : Ready n k f t p) (ht : t.Rising) {u : Table}
    (hu : p.writer.behind.file.table = some u) : u.Rising := by
  rw [h.table] at hu
  cases hu
  exact ht.addAll _

/-- The number of a row that is committed tells its place. -/
theorem Ready.id_eq (h : Ready n k f t p) {i : Nat} {c : Committed}
    (hc : (committed p.batches)[i]? = some c) : c.id = t.lastId + i + 1 := by
  have hid : ((committed p.batches).map (·.id))[i]? = some c.id := by
    rw [List.getElem?_map, hc]
    rfl
  rw [h.counted, numbered_ids] at hid
  obtain ⟨_, hid⟩ := List.getElem?_eq_some_iff.mp hid
  rw [List.getElem_range'] at hid
  omega

/-- What is told of keeps the places of what is committed. -/
theorem Ready.committed_of_sent (h : Ready n k f t p) {i : Nat} {c : Committed}
    (hc : p.writer.live.sent[i]? = some c) : (committed p.batches)[i]? = some c := by
  rw [← h.told, List.getElem?_append_left (List.getElem?_eq_some_iff.mp hc).1]
  exact hc

theorem Ready.sent_le (h : Ready n k f t p) :
    p.writer.live.sent.length ≤ (committed p.batches).length := by
  rw [← h.told, List.length_append]
  omega

end Pipeline

/-! ## Numbers that travel -/

theorem ofNat_le_ofNat {a b : Nat} (ha : a < Nat.pow 2 63) (hb : b < Nat.pow 2 63) :
    Int64.ofNat a ≤ Int64.ofNat b ↔ a ≤ b := by
  rw [Int64.le_iff_toInt_le, Int64.toInt_ofNat_of_lt ha, Int64.toInt_ofNat_of_lt hb, Int.ofNat_le]

theorem ofNat_lt_ofNat {a b : Nat} (ha : a < Nat.pow 2 63) (hb : b < Nat.pow 2 63) :
    Int64.ofNat a < Int64.ofNat b ↔ a < b := by
  rw [Int64.lt_iff_toInt_lt, Int64.toInt_ofNat_of_lt ha, Int64.toInt_ofNat_of_lt hb, Int.ofNat_lt]

/-- Of rows whose numbers rise from one on, a follower keeps the last number. -/
theorem history_eq {rows : List Row} (hrising : rows.Pairwise fun a b => a.id < b.id)
    (hids : ∀ r ∈ rows, 1 ≤ r.id ∧ r.id < Nat.pow 2 63) :
    Follower.history (rows.map (·.toEntry)) = {
      lastId := Int64.ofNat (rows.getLast?.elim 0 (·.id))
      printed := rows.map (·.toEntry) } := by
  induction rows using List.reverseRecOn with
  | nil => rfl
  | append_singleton rows r ih =>
    obtain ⟨hrows, _, hlast⟩ := List.pairwise_append.mp hrising
    obtain ⟨hids, hr⟩ := List.forall_mem_append.mp hids
    obtain ⟨_, hbound⟩ := hr r List.mem_cons_self
    -- the highest number so far is below the one that comes
    have hbelow : rows.getLast?.elim 0 (·.id) ≤ r.id := by
      cases h : rows.getLast? with
      | none => exact Nat.zero_le _
      | some a => exact Nat.le_of_lt (hlast a (List.mem_of_getLast? h) r List.mem_cons_self)
    have hmax : max (Int64.ofNat (rows.getLast?.elim 0 (·.id))) (Int64.ofNat r.id)
        = Int64.ofNat r.id :=
      if_pos ((ofNat_le_ofNat (Nat.lt_of_le_of_lt hbelow hbound) hbound).mpr hbelow)
    rw [List.map_append, Follower.history, List.foldl_append, ← Follower.history, ih hrows hids,
      List.getLast?_concat]
    show Follower.read _ r.toEntry = _
    rw [Follower.read, show r.toEntry.id = Int64.ofNat r.id from rfl, hmax]
    rfl

/-- Rows that a table has are heard of with rising numbers, be they read or told of. -/
theorem Table.Rising.entries {t : Table} (ht : t.Rising) (hbound : t.lastId < Nat.pow 2 63)
    {us : List Row} {cs : List Committed} (hsub : (us ++ cs.map (·.row)).Sublist t.rows) :
    (us.map (·.toEntry) ++ cs.map (·.entry)).Pairwise fun a b => a.id < b.id := by
  have hids : (us.map (·.toEntry) ++ cs.map (·.entry)).map (·.id)
      = (us ++ cs.map (·.row)).map fun r => Int64.ofNat r.id := by
    simp only [List.map_append, List.map_map]
    rfl
  have hbelow : ∀ r ∈ us ++ cs.map (·.row), r.id < Nat.pow 2 63 := fun r hr =>
    Nat.lt_of_le_of_lt (ht.given r (hsub.subset hr)).2 hbound
  refine List.pairwise_map.mp (hids ▸ List.pairwise_map.mpr ?_)
  exact (ht.rows.sublist hsub).imp_of_mem fun ha hb hlt =>
    (ofNat_lt_ofNat (hbelow _ ha) (hbelow _ hb)).mpr hlt

/-- A follower keeps the last number there was when it read the log, when `old` rows
had been committed behind the table `t`. If none had been, it may keep any
number that `t` has given out. -/
def KnowsUpTo (t : Table) (old : Nat) (f : Follower) : Prop :=
  ∃ last, f.lastId = Int64.ofNat last ∧
    (0 < old → t.lastId + old ≤ last) ∧ last ≤ t.lastId + old

/-! ## The client -/

/-- A daemon with the log of a pipeline. -/
def Pipeline.daemon (p : Pipeline) (d : Daemon) : Daemon := { d with
  writer := { d.writer with live := p.writer.live, behind := p.writer.behind.file } }

theorem Pipeline.readLog_eq {p : Pipeline} (d : Daemon) (query : LogQuery) {u : Table}
    (hu : p.writer.behind.file.table = some u) :
    (p.daemon d).readLog query = .ok { entries := u.read query.limit query.sinceId } := by
  rw [Daemon.readLog]
  simp only [daemon, hu]

/-- What is behind the desk of a client that is to follow the log: the pipeline,
what happens in it between listening and reading, and where the client listens. -/
structure Scene where
  pipeline : Pipeline
  meanwhile : List Move
  watcher : Option Daemon.Watcher := none

/-- The calls that following makes, of a daemon that is otherwise like `d`. -/
def Scene.manager (d : Daemon) : Manager Scene where
  status s := (.ok d.status, s)
  registry s := (.ok d.getRegistry, s)
  mutate r s := (statusOf (d.mutateRegistry r).1, s)
  sessions s := (.ok d.listSessions, s)
  readLog q s :=
    let p := s.pipeline.run s.meanwhile
    (statusOf ((p.daemon d).readLog q), { s with pipeline := p, meanwhile := [] })
  watch r s := (.ok (), { s with watcher := some ((s.pipeline.daemon d).subscribe r) })

/-- A client that has printed what it has read, and listens. -/
structure Listener where
  pipeline : Pipeline
  watcher : Daemon.Watcher
  follower : Follower
  /-- How much of the stream it has missed. -/
  missed : Nat := 0

/-- What can happen next. -/
inductive Turn where
  | other (m : Move)
  /-- The client takes what is next in the stream, if there is anything. -/
  | hear

namespace Listener

def turn (d : Daemon) (l : Listener) : Turn → Listener
  | .other m => { l with pipeline := l.pipeline.step m }
  | .hear =>
    match l.watcher.entries (l.pipeline.daemon d) with
    | [] => l
    | e :: _ =>
      let missed := (l.pipeline.writer.live.pending l.watcher.log).1
      { l with
        watcher := { l.watcher with log := l.watcher.log + missed + 1 }
        follower := l.follower.hear e
        missed := l.missed + missed }

def run (d : Daemon) (l : Listener) (turns : List Turn) : Listener := turns.foldl (turn d) l

/-- All rows that have been committed by now. -/
def rows (l : Listener) : List Committed := committed l.pipeline.batches

/-- What holds of a client that has missed nothing, since it read the log when
`old` rows had been committed behind the table `t`, and printed what `f` has. -/
structure Heard (n k faults : Nat) (t : Table) (old : Nat) (f : Follower) (l : Listener) :
    Prop where
  ready : Pipeline.Ready n k faults t l.pipeline
  listens : l.watcher.includeLog = true
  past : old ≤ l.rows.length
  place : l.watcher.log ≤ l.pipeline.writer.live.sent.length
  /-- Of the rows that have been committed since, those are printed that the client has got to. -/
  printed : l.follower.printed
    = f.printed ++ ((l.rows.drop old).take (l.watcher.log - old)).map (·.entry)
  lastId : l.follower.lastId
    = if l.watcher.log ≤ old then f.lastId else Int64.ofNat (t.lastId + l.watcher.log)

variable {n k faults : Nat} {t : Table} {d : Daemon} {old : Nat} {f : Follower} {l : Listener}

/-- A client that has just read has printed every row that the stream has got to. -/
theorem Heard.start {q : Pipeline} (hq : Pipeline.Ready n k faults t q) (f : Follower)
    {w : Daemon.Watcher} (hlistens : w.includeLog = true)
    (hplace : w.log ≤ q.writer.live.sent.length) :
    Heard n k faults t (committed q.batches).length f
      { pipeline := q, watcher := w, follower := f } := by
  have hread : w.log ≤ (committed q.batches).length := Nat.le_trans hplace hq.sent_le
  refine ⟨hq, hlistens, Nat.le_refl _, hplace, ?_, (if_pos hread).symm⟩
  show f.printed = f.printed ++ (List.take (w.log - _) _).map Committed.entry
  rw [Nat.sub_eq_zero_of_le hread, List.take_zero, List.map_nil, List.append_nil]

theorem Heard.other (h : Heard n k faults t old f l) (m : Move) :
    Heard n k faults t old f (l.turn d (.other m)) := by
  obtain ⟨⟨new, hrows⟩, ⟨later, hsent⟩⟩ := l.pipeline.step_grows m
  have hle := h.ready.sent_le
  have hplace := h.place
  have hold := h.past
  rw [rows] at hold
  refine ⟨h.ready.step m, h.listens, ?_, ?_, ?_, h.lastId⟩
  · show old ≤ (committed (l.pipeline.step m).batches).length
    rw [← hrows, List.length_append]
    omega
  · show l.watcher.log ≤ (l.pipeline.step m).writer.live.sent.length
    rw [← hsent, List.length_append]
    omega
  · show l.follower.printed = f.printed ++ (((committed (l.pipeline.step m).batches).drop old).take
      (l.watcher.log - old)).map (·.entry)
    rw [← hrows, List.drop_append_of_le_length hold, List.take_append_of_le_length, h.printed,
      rows]
    rw [List.length_drop]
    omega

/-- What the client hears next is the row at its place, if it misses none. -/
theorem Heard.next (h : Heard n k faults t old f l)
    (hmissed : (l.pipeline.writer.live.pending l.watcher.log).1 = 0) {e : LogEntry}
    {rest : List LogEntry} (hentries : l.watcher.entries (l.pipeline.daemon d) = e :: rest) :
    ∃ c, l.rows[l.watcher.log]? = some c ∧ e = c.entry ∧
      l.watcher.log < l.pipeline.writer.live.sent.length := by
  rw [Daemon.Watcher.entries, if_pos h.listens] at hentries
  obtain ⟨c, cs, hpending, rfl, _⟩ := List.map_eq_cons_iff.mp hentries
  have hdrop : l.pipeline.writer.live.sent.drop
      (l.watcher.log + (l.pipeline.writer.live.pending l.watcher.log).1) = c :: cs := hpending
  rw [hmissed, Nat.add_zero] at hdrop
  have hsent : l.pipeline.writer.live.sent[l.watcher.log]? = some c := by
    rw [← List.head?_drop, hdrop]
    rfl
  exact ⟨c, h.ready.committed_of_sent hsent, rfl, (List.getElem?_eq_some_iff.mp hsent).1⟩

/-- Whoever has yet to hear something hears it. -/
theorem Heard.hears (h : Heard n k faults t old f l)
    (hplace : l.watcher.log < l.pipeline.writer.live.sent.length)
    (hmissed : (l.pipeline.writer.live.pending l.watcher.log).1 = 0) :
    (l.turn d .hear).watcher.log = l.watcher.log + 1 := by
  have hentries : l.watcher.entries (l.pipeline.daemon d) ≠ [] := by
    rw [Daemon.Watcher.entries, if_pos h.listens]
    show (l.pipeline.writer.live.sent.drop
      (l.watcher.log + (l.pipeline.writer.live.pending l.watcher.log).1)).map _ ≠ []
    rw [hmissed, Nat.add_zero, Ne, List.map_eq_nil_iff, List.drop_eq_nil_iff]
    omega
  rw [turn]
  split
  next hnone => exact absurd hnone hentries
  next =>
    dsimp only
    rw [hmissed]

/-- **What the client hears it prints if it has not read it**, and only then. -/
theorem Heard.hear (h : Heard n k faults t old f l) (hf : KnowsUpTo t old f)
    (hbound : t.lastId + l.rows.length < Nat.pow 2 63) (hmissed : (l.turn d .hear).missed = 0) :
    Heard n k faults t old f (l.turn d .hear) := by
  obtain ⟨last, hlast, hread, hnew⟩ := hf
  rw [turn] at hmissed ⊢
  split
  next => exact h
  next e rest hentries =>
    simp only [hentries, Nat.add_eq_zero_iff] at hmissed
    obtain ⟨c, hc, rfl, hplace⟩ := h.next hmissed.2 hentries
    have hid := h.ready.id_eq hc
    have hle := h.ready.sent_le
    have hpast := h.past
    have hrows : l.rows.length = (committed l.pipeline.batches).length := rfl
    have hentry : c.entry.id = Int64.ofNat (t.lastId + l.watcher.log + 1) := by rw [← hid]; rfl
    dsimp only
    rw [hmissed.2, Nat.add_zero]
    by_cases hearlier : l.watcher.log < old
    · -- it has been read, and so its number is not above the last one there was
      have hnot : ¬ l.follower.lastId < c.entry.id := by
        rw [h.lastId, if_pos (by omega), hlast, hentry, ofNat_lt_ofNat (by omega) (by omega)]
        omega
      rw [Follower.hear, if_neg hnot]
      refine ⟨h.ready, h.listens, h.past, hplace, ?_, ?_⟩
      · show l.follower.printed
          = f.printed ++ ((l.rows.drop old).take (l.watcher.log + 1 - old)).map (·.entry)
        rw [h.printed, Nat.sub_eq_zero_of_le (Nat.le_of_lt hearlier),
          Nat.sub_eq_zero_of_le hearlier]
      · show l.follower.lastId = if l.watcher.log + 1 ≤ old then f.lastId else _
        rw [h.lastId, if_pos (Nat.le_of_lt hearlier), if_pos (Nat.succ_le_of_lt hearlier)]
    · -- it was committed later, behind all that has been read and heard
      have hlater : old ≤ l.watcher.log := Nat.le_of_not_lt hearlier
      have hprints : l.follower.lastId < c.entry.id := by
        rw [h.lastId, hentry]
        split
        next => rw [hlast, ofNat_lt_ofNat (by omega) (by omega)]; omega
        next => rw [ofNat_lt_ofNat (by omega) (by omega)]; omega
      rw [Follower.hear, if_pos hprints]
      refine ⟨h.ready, h.listens, h.past, hplace, ?_, ?_⟩
      · have hget : (l.rows.drop old)[l.watcher.log - old]? = some c := by
          rw [List.getElem?_drop, Nat.add_sub_cancel' hlater, hc]
        show l.follower.printed ++ [c.entry]
          = f.printed ++ ((l.rows.drop old).take (l.watcher.log + 1 - old)).map (·.entry)
        rw [h.printed, Nat.succ_sub hlater, List.take_add_one, hget, List.map_append,
          List.append_assoc]
        rfl
      · show c.entry.id = if l.watcher.log + 1 ≤ old then f.lastId
          else Int64.ofNat (t.lastId + (l.watcher.log + 1))
        rw [if_neg (by omega), hentry]
        rfl

/-- Rows stay, and what was missed stays missed. -/
theorem turn_grows (d : Daemon) (l : Listener) (τ : Turn) :
    l.rows <+: (l.turn d τ).rows ∧ l.missed ≤ (l.turn d τ).missed := by
  cases τ with
  | other m => exact ⟨(l.pipeline.step_grows m).1, Nat.le_refl _⟩
  | hear =>
    rw [turn]
    split
    next => exact ⟨List.prefix_rfl, Nat.le_refl _⟩
    next => exact ⟨List.prefix_rfl, Nat.le_add_right ..⟩

theorem run_grows (d : Daemon) (l : Listener) (turns : List Turn) :
    l.rows <+: (l.run d turns).rows ∧ l.missed ≤ (l.run d turns).missed := by
  induction turns generalizing l with
  | nil => exact ⟨List.prefix_rfl, Nat.le_refl _⟩
  | cons τ turns ih =>
    obtain ⟨hrows, hmissed⟩ := l.turn_grows d τ
    obtain ⟨hrows', hmissed'⟩ := ih (l.turn d τ)
    exact ⟨hrows.trans hrows', Nat.le_trans hmissed hmissed'⟩

/-- **This stays so as long as nothing is missed**, whatever turns are taken. -/
theorem Heard.run (h : Heard n k faults t old f l) (hf : KnowsUpTo t old f) (turns : List Turn)
    (hbound : t.lastId + (l.run d turns).rows.length < Nat.pow 2 63)
    (hmissed : (l.run d turns).missed = 0) : Heard n k faults t old f (l.run d turns) := by
  induction turns generalizing l with
  | nil => exact h
  | cons τ turns ih =>
    obtain ⟨hrows, hmissed'⟩ := (l.turn d τ).run_grows d turns
    obtain ⟨hrows', _⟩ := l.turn_grows d τ
    have hlength := hrows.length_le
    have hlength' := hrows'.length_le
    rw [Listener.run, List.foldl_cons, ← Listener.run] at hbound hmissed ⊢
    refine ih ?_ hbound hmissed
    cases τ with
    | other m => exact h.other m
    | hear => exact h.hear hf (by omega) (by omega)

end Listener

/-! ## Listening, then reading -/

/-- Where a client that follows the log begins: it listens, other things happen,
and it reads what is there and prints it. -/
theorem Scene.showLog_ok (d : Daemon) (limit : UInt32) (p : Pipeline) (meanwhile : List Move)
    {u : Table} (hu : (p.run meanwhile).writer.behind.file.table = some u) :
    (Control.showLog (Scene.manager d) true limit).perform
        { behind := { pipeline := p, meanwhile } }
      = (.ok (Follower.history (u.read limit 0)), {
          behind := {
            pipeline := p.run meanwhile
            meanwhile := []
            watcher := some ((p.daemon d).subscribe { includeLog := true }) }
          lines := (Follower.history (u.read limit 0)).lines }) := by
  have hread : ((p.run meanwhile).daemon d).readLog { limit, sinceId := 0 }
      = .ok { entries := u.read limit 0 } := Pipeline.readLog_eq d _ hu
  have hcall : ∀ desk : Control.Desk Scene,
      desk.behind.pipeline.run desk.behind.meanwhile = p.run meanwhile →
      (Control.Act.call ((Scene.manager d).readLog { limit, sinceId := 0 })).perform desk
        = (.ok { entries := u.read limit 0 }, { desk with
            behind := { desk.behind with pipeline := p.run meanwhile, meanwhile := [] } }) := by
    intro desk hrun
    simp only [Control.Act.perform, Control.Act.call, Scene.manager, hrun, hread]
    rfl
  rw [Control.showLog]
  dsimp only
  have hwatch : (Control.Act.call ((Scene.manager d).watch { includeLog := true })).perform
      { behind := { pipeline := p, meanwhile } } = (.ok (), { behind := {
        pipeline := p
        meanwhile
        watcher := some ((p.daemon d).subscribe { includeLog := true }) } }) := rfl
  rw [if_pos rfl, Control.Act.perform_bind_ok hwatch, Control.Act.perform_bind_ok (hcall _ rfl),
    Control.Act.perform_bind_ok (Control.Act.perform_forM_print _ _)]
  rfl

/-- What is read goes up to the last number that was given out, and not beyond. -/
theorem Pipeline.Ready.history {n k f : Nat} {t u : Table} {p : Pipeline} (h : Ready n k f t p)
    (ht : t.Rising) (hu : p.writer.behind.file.table = some u) (limit : UInt32)
    (hbound : t.lastId + (committed p.batches).length < Nat.pow 2 63) :
    (Follower.history (u.read limit 0)).printed = (u.newest limit).map (·.toEntry) ∧
      KnowsUpTo t (committed p.batches).length (Follower.history (u.read limit 0)) := by
  have hrising := h.rising ht hu
  cases hu.symm.trans h.table_eq
  have hgiven := fun r hr => hrising.given r ((Table.newest_sublist _ limit).subset hr)
  rw [hrising.read, history_eq (hrising.rows.sublist (Table.newest_sublist ..)) fun r hr =>
    ⟨(hgiven r hr).1, Nat.lt_of_le_of_lt (hgiven r hr).2 hbound⟩]
  refine ⟨rfl, _, rfl, fun hpos => ?_, ?_⟩
  · -- the last row that was committed is the last one there is
    have hget := List.getElem?_eq_getElem (Nat.sub_lt hpos Nat.one_pos)
    have hid := h.id_eq hget
    rw [Table.getLast?_newest, List.getLast?_append, List.getLast?_map,
      List.getLast?_eq_getElem?, hget]
    show _ ≤ Committed.id _
    omega
  · cases hlast : (Table.newest _ limit).getLast? with
    | none => exact Nat.zero_le _
    | some r => exact (hgiven r (List.mem_of_getLast? hlast)).2

namespace Listener

/-! ## The law -/

/-- What a client has printed that read the table `u`, when the rows `old` had been
committed, and has followed the log since, while the rows `later` were. -/
structure Followed (d : Daemon) (limit : UInt32) (u : Table) (old later : List Committed)
    (l : Listener) : Prop where
  rows : l.rows = old ++ later
  table : l.pipeline.writer.behind.file.table = some {
    rows := u.rows ++ later.map (·.row)
    lastId := u.lastId + later.length }
  /-- The newest rows that there were, and of those that came later the ones whose
  places in the stream the client has passed. -/
  printed : l.follower.printed = (u.newest limit).map (·.toEntry)
    ++ (later.take (l.watcher.log - old.length)).map (·.entry)
  rising : l.follower.printed.Pairwise fun a b => a.id < b.id
  /-- As long as there is something to hear, it gets on. -/
  hears : l.watcher.log < l.pipeline.writer.live.sent.length →
    (l.pipeline.writer.live.pending l.watcher.log).1 = 0 →
      (l.turn d .hear).watcher.log = l.watcher.log + 1
  /-- At the end of the stream none is left out. -/
  caughtUp : l.watcher.log = l.pipeline.writer.live.sent.length → l.pipeline.phase.untold = [] →
    l.follower.printed = (u.newest limit).map (·.toEntry) ++ later.map (·.entry)

/-- **Whoever has missed nothing has printed every row once**, in the order of the numbers. -/
theorem Heard.followed {q : Pipeline} {u : Table} {limit : UInt32}
    (h : Heard n k faults t (committed q.batches).length f l)
    (hq : Pipeline.Ready n k faults t q) (hu : q.writer.behind.file.table = some u) (ht : t.Rising)
    (hf : f.printed = (u.newest limit).map (·.toEntry))
    (hrows : committed q.batches <+: l.rows) (hbound : t.lastId + l.rows.length < Nat.pow 2 63) :
    ∃ later, Followed d limit u (committed q.batches) later l := by
  obtain ⟨later, hlater⟩ := hrows
  have htable : l.pipeline.writer.behind.file.table = some {
      rows := u.rows ++ later.map (·.row)
      lastId := u.lastId + later.length } := by
    rw [hq.table_eq] at hu
    cases hu
    rw [h.ready.table_eq, ← rows, ← hlater, List.map_append, List.length_append,
      List.append_assoc, Nat.add_assoc]
  have hprinted : l.follower.printed = (u.newest limit).map (·.toEntry)
      ++ (later.take (l.watcher.log - (committed q.batches).length)).map (·.entry) := by
    rw [h.printed, hf, ← hlater, List.drop_left]
  refine ⟨later, hlater.symm, htable, hprinted, ?_, h.hears, fun hend htold => ?_⟩
  · -- the rows are some of those that the table has now
    have hlast : u.lastId + later.length = t.lastId + l.rows.length :=
      congrArg Table.lastId (Option.some.inj (htable.symm.trans h.ready.table_eq))
    rw [hprinted]
    exact (h.ready.rising ht htable).entries (hlast ▸ hbound)
      ((u.newest_sublist limit).append ((List.take_sublist ..).map _))
  · have hall := h.ready.told
    rw [htold, List.append_nil] at hall
    have hlength : l.watcher.log = (committed q.batches).length + later.length := by
      rw [hend, hall, ← rows, ← hlater, List.length_append]
    rw [hprinted, List.take_of_length_le (by omega)]

/-- **Whoever follows the log sees every row once.** Whatever was there before,
in whatever order events are published, written and told of before the
client listens, while it has yet to read, and while it hears, and whatever
goes wrong with the file: it prints the newest rows there are when it reads,
and then every row that is committed later as far as it has heard, with
rising numbers, as long as it misses nothing in the stream and the numbers
fit into the 63 bits they have. -/
theorem run_followed (n k live : Nat) (t : Table) (faults : List (Option SqlFault))
    (before meanwhile : List Move) (limit : UInt32) (turns : List Turn) (d : Daemon) (hk : 1 ≤ k)
    (ht : t.Rising) :
    let p := (Pipeline.start n k live t faults).run before
    let q := p.run meanwhile
    ∃ u f w, q.writer.behind.file.table = some u ∧
      (Control.showLog (Scene.manager d) true limit).perform
          { behind := { pipeline := p, meanwhile } }
        = (.ok f, {
            behind := { pipeline := q, meanwhile := [], watcher := some w }
            lines := f.lines }) ∧
      let l := ({ pipeline := q, watcher := w, follower := f } : Listener).run d turns
      l.missed = 0 → t.lastId + l.rows.length < Nat.pow 2 63 →
        ∃ later, Followed d limit u (committed q.batches) later l := by
  intro p q
  have hp : Pipeline.Ready n k _ t p := (Pipeline.Ready.start live faults hk).run before
  have hq : Pipeline.Ready n k _ t q := hp.run meanwhile
  refine ⟨_, _, _, hq.table, Scene.showLog_ok d limit p meanwhile hq.table, ?_⟩
  intro l hmissed hbound
  have hrows : committed q.batches <+: l.rows := (run_grows d ⟨q, _, _, 0⟩ turns).1
  obtain ⟨hprinted, hf⟩ := hq.history ht hq.table limit (by
    have := hrows.length_le
    omega)
  -- what it listens to begins where it has read already
  have hplace : p.writer.live.sent.length ≤ q.writer.live.sent.length :=
    (p.run_grows meanwhile).2.length_le
  exact ((Heard.start hq _ rfl hplace).run hf turns hbound hmissed).followed hq hq.table ht
    hprinted hrows hbound

/-- Two events have been written when the client begins to listen, and none has
been told of. It hears of both, of one before it reads and of the other
after, and prints them once, as it does the one that is written last. -/
theorem run_followed_overlapping :
    let event (s : String) : Event := { ts := .epoch, kind := .registryMutated, detail := s }
    let d := Control.unsaved {}
    let t : Table := { rows := [.ofEvent 7 (event "a")], lastId := 7 }
    let before : List Move := [.publish (event "b"), .publish (event "c"), .receive, .receive]
    let meanwhile : List Move := [.tell]
    let turns : List Turn := [.hear, .other .tell, .other .tell, .other (.publish (event "d")),
      .other .receive, .hear, .other .tick, .other .tell, .hear]
    let p := (Pipeline.start 4 2 8 t []).run before
    let q := p.run meanwhile
    1 ≤ 2 ∧ t.Rising ∧ ∃ u f w, q.writer.behind.file.table = some u ∧
      (Control.showLog (Scene.manager d) true 2).perform { behind := { pipeline := p, meanwhile } }
        = (.ok f, {
            behind := { pipeline := q, meanwhile := [], watcher := some w }
            lines := f.lines }) ∧
      let l := ({ pipeline := q, watcher := w, follower := f } : Listener).run d turns
      l.missed = 0 ∧ t.lastId + l.rows.length < Nat.pow 2 63 ∧
        (∃ later, Followed d 2 u (committed q.batches) later l) ∧
        f.printed.map (·.id) = [8, 9] ∧ l.follower.printed.map (·.id) = [8, 9, 10] := by
  intro event d t before meanwhile turns p q
  have ht : t.Rising := ⟨List.pairwise_singleton .., by decide +kernel⟩
  obtain ⟨u, f, w, hu, hshow, hlaw⟩ :=
    run_followed 4 2 8 t [] before meanwhile 2 turns d (by decide) ht
  have hfirst := hshow.symm.trans (Scene.showLog_ok d 2 p meanwhile hu)
  simp only [Prod.mk.injEq, Except.ok.injEq, Control.Desk.mk.injEq, Scene.mk.injEq,
    Option.some.injEq] at hfirst
  obtain ⟨rfl, ⟨-, -, rfl⟩, -⟩ := hfirst
  cases hu.symm.trans (show _ = some (t.addAll [event "b", event "c"]) by decide +kernel)
  refine ⟨by decide, ht, _, _, _, hu, hshow, ?_, ?_, hlaw ?_ ?_, ?_, ?_⟩ <;> decide +kernel

end Listener

end Interpose.Log
