/-
Interpose.Proofs.Log.Entries — an entry that is read is the entry that was pushed.

An event is told of in two ways that have nothing in common. Who watches is
pushed the event itself; who reads the log is served a row, which has the
moment in microseconds and the kind by name. Both come out as log entries,
and both times it is the same entry up to what is less than a microsecond
(`Committed.roundsTo`).

That the two are about the same event is a matter of their numbers, and these
must last: rows are purged, and the daemon comes up again on the rows that
are left. What carries the proof is a table that nobody has: all the rows
there have ever been (`Pipeline.Recorded`). It only grows, and no number is
in it twice.

Main statement: `entries_agree`.
-/
import Interpose.Proofs.Log.Paging
import Interpose.Proofs.Time.Moments

namespace Interpose

/-! ## Events and entries -/

theorem DiagnosticKind.ofCode?_eq_some_iff {n : Int32} {k : DiagnosticKind} :
    ofCode? n = some k ↔ k.code = n := by
  constructor
  · intro h
    have hcode := List.find?_some h
    exact beq_iff_eq.mp hcode
  · rintro rfl
    exact ofCode?_code k

namespace Event

/-- **The entry of an event gives the event back.** -/
theorem ofEntry_toEntry (e : Event) (id : Int64) : ofEntry (e.toEntry id) = .ok e := by
  simp only [ofEntry, toEntry, DiagnosticKind.ofCode?_code, DateTime.ofTimestamp?_toTimestamp]

theorem ofEntry_eq_ok_iff {x : LogEntry} {e : Event} : ofEntry x = .ok e ↔
    ∃ ts, x.ts = some ts ∧ DateTime.ofTimestamp? ts = some e.ts ∧ e.kind.code = x.event ∧
      e.pid = x.pid ∧ e.moduleId = x.moduleId ∧ e.detail = x.detail := by
  rw [ofEntry]
  cases x.ts with
  | none => simp
  | some ts =>
    simp only [Option.some.injEq, exists_eq_left', ← DiagnosticKind.ofCode?_eq_some_iff]
    cases DiagnosticKind.ofCode? x.event with
    | none => simp
    | some kind =>
      cases DateTime.ofTimestamp? ts with
      | none => simp
      | some moment =>
        obtain ⟨ts', pid, moduleId, kind', detail⟩ := e
        simp only [Except.ok.injEq, mk.injEq, Option.some.injEq]
        tauto

/-- An entry is that of an event if its moment can be told and its kind is known. -/
theorem exists_ofEntry_iff {x : LogEntry} : (∃ e, ofEntry x = .ok e) ↔
    ∃ ts, x.ts = some ts ∧ IsMoment ts.seconds.toInt (max ts.nanos 0).toInt.toNat ∧
      ∃ kind : DiagnosticKind, kind.code = x.event := by
  have hclamp (ts : Timestamp) : (max ts.nanos 0).toInt.toNat = ts.nanos.toInt.toNat := by
    rw [toInt32_max, show (0 : Int32).toInt = 0 from rfl]
    omega
  simp only [ofEntry_eq_ok_iff, hclamp, ← DateTime.exists_of?_iff]
  constructor
  · rintro ⟨e, ts, hts, hmoment, hkind, -⟩
    exact ⟨ts, hts, ⟨e.ts, hmoment⟩, e.kind, hkind⟩
  · rintro ⟨ts, hts, ⟨moment, hmoment⟩, kind, hkind⟩
    exact ⟨⟨moment, x.pid, x.moduleId, kind, x.detail⟩, ts, hts, hmoment, hkind, rfl, rfl, rfl⟩

/-- **And then the event gives the entry back**, unless that had negative nanoseconds. -/
theorem toEntry_of_ofEntry {x : LogEntry} {e : Event} (h : ofEntry x = .ok e) :
    ∃ ts, x.ts = some ts ∧
      e.toEntry x.id = { x with ts := some { ts with nanos := max ts.nanos 0 } } := by
  obtain ⟨ts, hts, hmoment, hkind, hpid, hmodule, hdetail⟩ := ofEntry_eq_ok_iff.mp h
  refine ⟨ts, hts, ?_⟩
  rw [toEntry, DateTime.toTimestamp_of_ofTimestamp? hmoment, hkind, hpid, hmodule, hdetail]

end Event

/-- The entry `y` tells of the same event as `x`, and of the moment all but
parts of a microsecond unless it is in a leap second. -/
structure LogEntry.RoundsTo (x y : LogEntry) : Prop where
  others : { y with ts := x.ts } = x
  ts : ∃ ts us, x.ts = some ts ∧ y.ts = some us ∧
    (ts.nanos < 1000000000 →
      us.seconds = ts.seconds ∧ us.nanos.toInt = ts.nanos.toInt / 1000 * 1000)

namespace Log

/-! ## Events and rows -/

theorem Committed.row_toEntry (c : Committed) : c.row.toEntry = { c.entry with
    ts := some ((DateTime.ofMicros? c.event.ts.micros).getD .epoch).toTimestamp } := by
  have hwide : (Int64.ofNat c.event.pid.toNat).toUInt64 = UInt64.ofNat c.event.pid.toNat := rfl
  have hpid : (Int64.ofNat c.event.pid.toNat).toUInt64.toUInt32 = c.event.pid := by
    rw [hwide, UInt64.ofNat_uInt32ToNat, UInt32.toUInt32_toUInt64]
  simp only [row, Row.toEntry, Row.ofEvent, entry, Event.toEntry, DiagnosticKind.ofName?_name, hpid,
    Option.getD_some]

/-- **What is served for a row is what was pushed**, in whole microseconds. -/
theorem Committed.roundsTo (c : Committed) : c.entry.RoundsTo c.row.toEntry := by
  rw [row_toEntry]
  refine ⟨rfl, _, _, rfl, rfl, fun hnanos => ?_⟩
  have hleap : c.event.ts.isLeapSecond = false := by
    rw [Int32.lt_iff_toInt_lt, DateTime.toInt_nanos] at hnanos
    rw [DateTime.isLeapSecond, decide_eq_false_iff_not]
    exact fun hle => absurd (Int.ofNat_le.mpr hle) (Int.not_le.mpr hnanos)
  rw [DateTime.ofMicros?_micros_of_not_leap hleap, Option.getD_some]
  refine ⟨rfl, ?_⟩
  rw [DateTime.toInt_nanos, DateTime.toInt_nanos]
  rfl

/-! ## What happens to a log -/

inductive Happening where
  | move (m : Move)
  /-- Old rows are removed. -/
  | purge (cutoff : Int)
  /-- The daemon goes, with all that is not in a row and all who watch, and
  comes up again. -/
  | restart (capacity batchSize live : Nat) (faults : List (Option SqlFault))

namespace Pipeline

def happen (p : Pipeline) : Happening → Pipeline
  | .move m => p.step m
  | .purge cutoff => { p with
      writer := { p.writer with behind := p.writer.behind.change (.purge cutoff) } }
  | .restart capacity batchSize live faults =>
    start capacity batchSize live (p.writer.behind.file.table.getD {}) faults

def happenAll (p : Pipeline) (hs : List Happening) : Pipeline := hs.foldl happen p

end Pipeline

/-- What is left in the table `u` of the rows of `t`, when all this has happened. -/
structure Table.Leaves (past : List Happening) (t u : Table) : Prop where
  lastId : u.lastId = t.lastId
  rows : u.rows.Sublist t.rows
  kept : ∀ r ∈ t.rows, (∀ cutoff, .purge cutoff ∈ past → cutoff ≤ r.micros.toInt) → r ∈ u.rows

namespace Table

variable {past past' : List Happening} {t u : Table}

theorem Leaves.refl (past : List Happening) (t : Table) : Leaves past t t :=
  ⟨rfl, List.Sublist.refl _, fun _ hr _ => hr⟩

theorem Leaves.mono (h : Leaves past t u) (hpast : past ⊆ past') : Leaves past' t u :=
  ⟨h.lastId, h.rows, fun r hr hleft => h.kept r hr fun cutoff hmem => hleft cutoff (hpast hmem)⟩

theorem Leaves.addAll (h : Leaves past t u) (es : List Event) :
    Leaves past (t.addAll es) (u.addAll es) := by
  rw [addAll_eq, addAll_eq, h.lastId]
  refine ⟨rfl, h.rows.append_right _, fun r hr hleft => ?_⟩
  rcases List.mem_append.mp hr with hr | hr
  · exact List.mem_append_left _ (h.kept r hr hleft)
  · exact List.mem_append_right _ hr

theorem Leaves.purge (h : Leaves past t u) {cutoff : Int} (hpast : .purge cutoff ∈ past) :
    Leaves past t (u.purge cutoff) where
  lastId := h.lastId
  rows := List.filter_sublist.trans h.rows
  kept r hr hleft :=
    List.mem_filter.mpr ⟨h.kept r hr hleft, decide_eq_true (hleft cutoff hpast)⟩

/-- A read with room for all the rows answers every row behind the number. -/
theorem mem_read_of_length_le {limit : UInt32} {since : Int64} {r : Row}
    (hlength : u.rows.length ≤ limitOf limit) (hr : r ∈ u.rows) (hlt : since.toInt < r.id) :
    r.toEntry ∈ u.read limit since := by
  have hbehind : r ∈ u.rows.filter fun r => since.toInt < r.id :=
    List.mem_filter.mpr ⟨hr, decide_eq_true hlt⟩
  have hfits := Nat.le_trans (List.length_filter_le (fun r => decide (since.toInt < r.id)) u.rows)
    hlength
  refine List.mem_map_of_mem ?_
  rw [select]
  split
  · rwa [List.take_of_length_le hfits]
  · rwa [Nat.sub_eq_zero_of_le hfits, List.drop_zero]

end Table

namespace Pipeline

/-- What holds when all this has happened, of a pipeline whose table has had
the rows of `t` and no others. -/
structure Recorded (past : List Happening) (t : Table) (p : Pipeline) : Prop where
  database : p.writer.database = Connection.database
  table : ∃ u, p.writer.behind.file.table = some u ∧ Table.Leaves past t u
  rising : t.Rising
  told : p.writer.live.sent ++ p.phase.untold = committed p.batches
  rows : ∀ c ∈ committed p.batches, c.row ∈ t.rows

variable {past past' : List Happening} {t : Table} {p : Pipeline}

theorem Recorded.mono (h : Recorded past t p) (hpast : past ⊆ past') : Recorded past' t p :=
  have ⟨u, hu, hleaves⟩ := h.table
  { h with table := ⟨u, hu, hleaves.mono hpast⟩ }

theorem Recorded.start (capacity batchSize live : Nat) {u : Table}
    (faults : List (Option SqlFault)) (hleaves : Table.Leaves past t u) (ht : t.Rising) :
    Recorded past t (start capacity batchSize live u faults) :=
  ⟨rfl, ⟨u, rfl, hleaves⟩, ht, rfl, fun _ hc => nomatch hc⟩

/-- A batch is written: its rows are new, or there are none. -/
theorem Recorded.store (h : Recorded past t p) (hp : p.phase = .waiting) (last : Bool) :
    ∃ t', t.rows ⊆ t'.rows ∧ Recorded past t' (p.store last) := by
  obtain ⟨u, hu, hleaves⟩ := h.table
  obtain ⟨-, hnumbered, htable, -⟩ := Writer.batch_rows h.database hu
  have hsent : p.writer.live.sent = committed p.batches := by
    simpa [hp, Phase.untold] using h.told
  have hrows : (t.addAll ((p.writer.batch.rows.getD []).map (·.event))).rows
      = t.rows ++ (p.writer.batch.rows.getD []).map (·.row) := by
    rw [Table.addAll_eq, ← hleaves.lastId, ← hnumbered]
  refine ⟨_, hrows ▸ List.subset_append_left .., ?_, ⟨_, ?_, hleaves.addAll _⟩, h.rising.addAll _,
    ?_, fun c hc => ?_⟩
  · rw [writer_store, h.database]
  · rw [writer_store, htable]
  · rw [committed_store, writer_store, hsent, phase_store, Phase.untold]
  · rw [committed_store] at hc
    rw [hrows]
    rcases List.mem_append.mp hc with hc | hc
    · exact List.mem_append_left _ (h.rows c hc)
    · exact List.mem_append_right _ (List.mem_map_of_mem hc)

theorem Recorded.move (h : Recorded past t p) (m : Move) :
    ∃ t', t.rows ⊆ t'.rows ∧ Recorded past t' (p.step m) := by
  have hself : ∃ t', t.rows ⊆ t'.rows ∧ Recorded past t' p := ⟨t, fun _ hr => hr, h⟩
  cases m with
  | publish e =>
    rw [step]
    split
    · exact ⟨t, fun _ hr => hr, { h with }⟩
    · exact hself
  | close => exact ⟨t, fun _ hr => hr, { h with }⟩
  | receive =>
    rw [step]
    split
    case h_2 => exact hself
    case h_1 hp =>
      rw [Pipeline.receive]
      split
      next e queue _ =>
        have hgathered : Recorded past t { p with queue, writer := p.writer.gather e } :=
          { h with }
        dsimp only
        split
        · exact hgathered.store hp false
        · exact ⟨t, fun _ hr => hr, hgathered⟩
      next =>
        split
        · exact hself
        · exact h.store hp true
  | tick =>
    rw [step]
    split
    next hp => exact h.store hp false
    next => exact hself
  | tell =>
    have htold := h.told
    refine ⟨t, fun _ hr => hr, ?_⟩
    rw [step]
    split
    case h_4 => exact h
    all_goals
      rename_i hp
      rw [hp] at htold
      exact { h with told := by simpa [Writer.tell, Broadcast.send, Phase.untold] using htold }

theorem Recorded.happen (h : Recorded past t p) (x : Happening) :
    ∃ t', t.rows ⊆ t'.rows ∧ Recorded (past ++ [x]) t' (p.happen x) := by
  have hmono : Recorded (past ++ [x]) t p := h.mono (List.subset_append_left ..)
  obtain ⟨u, hu, hleaves⟩ := hmono.table
  cases x with
  | move m => exact hmono.move m
  | purge cutoff =>
    refine ⟨t, fun _ hr => hr, { hmono with table := ⟨u.purge cutoff, ?_, ?_⟩ }⟩
    · show p.writer.behind.file.table.map (·.purge cutoff) = _
      rw [hu]
      rfl
    · exact hleaves.purge (List.mem_append_right _ List.mem_cons_self)
  | restart capacity batchSize live faults =>
    refine ⟨t, fun _ hr => hr, ?_⟩
    rw [Pipeline.happen, hu]
    exact .start _ _ _ _ hleaves hmono.rising

/-- **Rows are recorded for good**, whatever happens. -/
theorem Recorded.happenAll (h : Recorded past t p) (hs : List Happening) :
    ∃ t', t.rows ⊆ t'.rows ∧ Recorded (past ++ hs) t' (p.happenAll hs) := by
  induction hs generalizing past t p with
  | nil => exact ⟨t, fun _ hr => hr, (List.append_nil past).symm ▸ h⟩
  | cons x hs ih =>
    obtain ⟨t', hsub, hnext⟩ := h.happen x
    obtain ⟨t'', hsub', hlast⟩ := ih hnext
    refine ⟨t'', fun r hr => hsub' (hsub hr), ?_⟩
    rwa [List.append_assoc] at hlast

/-! ## The two ways -/

/-- What is pushed is the entry of an event that has been committed. -/
theorem Recorded.exists_of_mem_entries (h : Recorded past t p) {d : Daemon} {w : Daemon.Watcher}
    {x : LogEntry} (hx : x ∈ w.entries (p.daemon d)) : ∃ c ∈ committed p.batches, x = c.entry := by
  rw [Daemon.Watcher.entries] at hx
  split at hx
  · obtain ⟨c, hc, rfl⟩ := List.mem_map.mp hx
    have hsent : c ∈ p.writer.live.sent := List.mem_of_mem_drop hc
    exact ⟨c, h.told ▸ List.mem_append_left _ hsent, rfl⟩
  · cases hx

/-- Who listens and has missed nothing is pushed the entries of all that has been
committed since, in order, but for what is still to be told. -/
def Pushes (p : Pipeline) : Prop :=
  ∀ (d : Daemon) (w : Daemon.Watcher), w.includeLog = true →
    w.log ≤ p.writer.live.sent.length → (p.writer.live.pending w.log).1 = 0 →
      w.entries (p.daemon d) ++ p.phase.untold.map (·.entry)
        = ((committed p.batches).drop w.log).map (·.entry)

/-- Whatever is served in `q` under the number of what is pushed in `p` tells of the same event. -/
def AgreesWith (q p : Pipeline) : Prop :=
  ∀ (d d' : Daemon) (w : Daemon.Watcher), ∀ x ∈ w.entries (p.daemon d), ∀ query,
    ∃ page, (q.daemon d').readLog query = .ok page ∧
      ∀ y ∈ page.entries, y.id = x.id → x.RoundsTo y

/-- As long as the row of what is pushed in `p` cannot have been purged, it is
served in `q` to whoever asks for all the rows behind a lower number. -/
def ServesFrom (past : List Happening) (q p : Pipeline) : Prop :=
  ∀ (d d' : Daemon) (w : Daemon.Watcher), ∀ x ∈ w.entries (p.daemon d),
    (∀ ts, x.ts = some ts → ∀ cutoff, .purge cutoff ∈ past →
      cutoff ≤ ts.seconds.toInt * 1000000 + ts.nanos.toInt / 1000) →
    ∀ u query, q.writer.behind.file.table = some u → u.rows.length ≤ Table.limitOf query.limit →
      query.sinceId < x.id →
        ∃ page, (q.daemon d').readLog query = .ok page ∧ ∃ y ∈ page.entries, x.RoundsTo y

variable {q : Pipeline} {t' all : Table}

theorem Recorded.pushes (h : Recorded past t p) : p.Pushes := by
  intro d w hlistens hplace hmissed
  have hentries : w.entries (p.daemon d) = (p.writer.live.sent.drop w.log).map (·.entry) := by
    rw [Daemon.Watcher.entries, if_pos hlistens]
    show (p.writer.live.sent.drop (w.log + (p.writer.live.pending w.log).1)).map _ = _
    rw [hmissed]
    rfl
  rw [hentries, ← List.map_append, ← h.told, List.drop_append_of_le_length hplace]

theorem AgreesWith.of_recorded (hp : Recorded past t p) (hq : Recorded past' t' q)
    (hall : all.Rising) (hbound : all.lastId < Nat.pow 2 63) (hsub : t.rows ⊆ all.rows)
    (hsub' : t'.rows ⊆ all.rows) : q.AgreesWith p := by
  intro d d' w x hx query
  obtain ⟨c, hc, rfl⟩ := hp.exists_of_mem_entries hx
  obtain ⟨u, hu, hleaves⟩ := hq.table
  refine ⟨_, readLog_eq d' query hu, fun y hy hid => ?_⟩
  obtain ⟨r, hr, rfl⟩ := List.mem_map.mp hy
  have hserved : r ∈ all.rows := hsub' (hleaves.rows.subset ((u.select_sublist ..).subset hr))
  have hpushed : c.row ∈ all.rows := hsub (hp.rows c hc)
  -- all rows have numbers of their own, hence this is the row of the event
  have hrow : r = c.row := by
    refine eq_of_pairwise_ne (hall.rows.imp Nat.ne_of_lt) hserved hpushed (Int.ofNat.inj ?_)
    have hint := congrArg Int64.toInt hid
    rwa [hall.toInt_id hbound hserved, show c.entry.id = c.row.toEntry.id from rfl,
      hall.toInt_id hbound hpushed] at hint
  exact hrow ▸ c.roundsTo

theorem ServesFrom.of_recorded (hp : Recorded past t p) (hq : Recorded past' t' q)
    (hbound : t'.lastId < Nat.pow 2 63) (hsub : t.rows ⊆ t'.rows) : q.ServesFrom past' p := by
  intro d d' w x hx hleft u query hu hlength hlt
  obtain ⟨c, hc, rfl⟩ := hp.exists_of_mem_entries hx
  obtain ⟨v, hv, hleaves⟩ := hq.table
  cases hu.symm.trans hv
  have hrecorded : c.row ∈ t'.rows := hsub (hp.rows c hc)
  have hmicros : c.row.micros.toInt = c.event.ts.toTimestamp.seconds.toInt * 1000000
      + c.event.ts.toTimestamp.nanos.toInt / 1000 := by
    rw [DateTime.toInt_seconds, DateTime.toInt_nanos]
    exact c.event.ts.toInt_micros
  have hrow : c.row ∈ u.rows := hleaves.kept c.row hrecorded fun cutoff hmem =>
    hmicros ▸ hleft _ rfl cutoff hmem
  have hbehind : query.sinceId.toInt < c.row.id := by
    rw [← hq.rising.toInt_id hbound hrecorded]
    exact Int64.lt_iff_toInt_lt.mp hlt
  exact ⟨_, readLog_eq d' query hu, _, Table.mem_read_of_length_le hlength hrow hbehind, c.roundsTo⟩

end Pipeline

/-! ## The law -/

/-- **Live and stored entries agree.** An event is the same after it has been an
entry, at whatever moment and under whatever number. An entry is that of an
event if it has a timestamp that is one of a moment when negative nanoseconds
count as none, and a kind that is known; then it is the same after it has been
an event but for such nanoseconds. And whatever happens to a log, all that is
written is pushed to those who listen; what is pushed of an event and what is
served of it, be it earlier or later, are the same entry but for parts of a
microsecond, unless the event is in a leap second; and it is served as long as
it is not purged. -/
theorem entries_agree (capacity batchSize live : Nat) (t : Table)
    (faults : List (Option SqlFault)) (hs hs' : List Happening) (ht : t.Rising) :
    (∀ (e : Event) id, Event.ofEntry (e.toEntry id) = .ok e) ∧
    (∀ x, (∃ e, Event.ofEntry x = .ok e) ↔
      ∃ ts, x.ts = some ts ∧ IsMoment ts.seconds.toInt (max ts.nanos 0).toInt.toNat ∧
        ∃ kind : DiagnosticKind, kind.code = x.event) ∧
    (∀ x e, Event.ofEntry x = .ok e → ∃ ts, x.ts = some ts ∧
      e.toEntry x.id = { x with ts := some { ts with nanos := max ts.nanos 0 } }) ∧
    let p := (Pipeline.start capacity batchSize live t faults).happenAll hs
    let q := p.happenAll hs'
    p.Pushes ∧ ∃ u, q.writer.behind.file.table = some u ∧ (u.lastId < Nat.pow 2 63 →
      q.AgreesWith p ∧ p.AgreesWith q ∧ q.ServesFrom (hs ++ hs') p) := by
  refine ⟨Event.ofEntry_toEntry, fun _ => Event.exists_ofEntry_iff,
    fun _ _ => Event.toEntry_of_ofEntry, ?_⟩
  intro p q
  have hstart : Pipeline.Recorded [] t (.start capacity batchSize live t faults) :=
    .start _ _ _ _ (.refl _ t) ht
  obtain ⟨t', -, hp⟩ := hstart.happenAll hs
  obtain ⟨t'', hsub, hq⟩ := hp.happenAll hs'
  obtain ⟨u, hu, hleaves⟩ := hq.table
  refine ⟨hp.pushes, u, hu, fun hbound => ?_⟩
  rw [hleaves.lastId] at hbound
  have hself : t''.rows ⊆ t''.rows := List.Subset.refl _
  exact ⟨.of_recorded hp hq hq.rising hbound hsub hself, .of_recorded hq hp hq.rising hbound hself
    hsub, .of_recorded hp hq hbound hsub⟩

/-- An event from the last nanosecond before 1970 is pushed. Its row outlives a purge
and a restart, and is then served with the last whole microsecond. -/
theorem entries_agree_restarted :
    let ts : DateTime := (DateTime.of? (-1) 999999999).getD .epoch
    let e : Event := { ts, pid := 7, moduleId := "m", kind := .hookInstallFailure, detail := "d" }
    let t : Table := Table.addAll {} [.daemon .epoch .registryCorruption ""]
    let hs : List Happening := [.move (.publish e), .move .receive, .move .tell]
    let hs' : List Happening := [.purge (-1), .restart 1 1 1 []]
    let p := (Pipeline.start 1 1 1 t []).happenAll hs
    let q := p.happenAll hs'
    let d := Control.unsaved {}
    let w : Daemon.Watcher := { includeLog := true, bumps := 0, log := 0 }
    let x := e.toEntry 2
    let y := { x with ts := some { seconds := -1, nanos := 999999000 } }
    t.Rising ∧ w.entries (p.daemon d) = [x] ∧
      (q.daemon d).readLog { sinceId := 1 } = .ok { entries := [y] } ∧
      x.ts = some { seconds := -1, nanos := 999999999 } ∧ Event.ofEntry x = .ok e ∧
      x.RoundsTo y := by
  intro ts e t hs hs' p q d w x y
  have ht : t.Rising := Table.Rising.empty.addAll _
  obtain ⟨hback, -, -, -, u, hu, hagree⟩ := entries_agree 1 1 1 t [] hs hs' ht
  cases hu.symm.trans (show _ = some (t.addAll [e]) by decide +kernel)
  have hpushed : w.entries (p.daemon d) = [x] := by decide +kernel
  have hserved : (q.daemon d).readLog { sinceId := 1 } = .ok { entries := [y] } := by decide +kernel
  obtain ⟨page, hpage, hrounds⟩ :=
    (hagree (by decide)).1 d d w x (hpushed ▸ List.mem_cons_self) { sinceId := 1 }
  cases hserved.symm.trans hpage
  exact ⟨ht, hpushed, hserved, by decide, hback e 2, hrounds y List.mem_cons_self rfl⟩

end Log

end Interpose
