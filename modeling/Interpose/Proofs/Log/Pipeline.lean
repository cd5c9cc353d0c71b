/-
Interpose.Proofs.Log.Pipeline — from publishing to the rows, and to all who watch.

An event is published into a queue, from there the writer gathers it into a
batch, and of a batch that got its rows it tells all who watch, one row after
the other. Whoever publishes and the writer take turns in any order, also
while the writer is telling, and any step on the file may fail. Only writing
is a single move: nobody who publishes has to do with what the writer holds.

Wherever an event is, it is there in the order of publishing: what was taken
is what the batches hold, then what the writer holds, then what the queue
holds (`Sound.kept`). Events get lost in two places only: in front of a full
queue, and as a whole batch.

Main statement: `Pipeline.run_accounted`.
-/
import Interpose.Proofs.Log.Flush

namespace Interpose.Log

/-! ## The way of an event -/

/-- A batch that the writer is done with: its events, and what the database
answered them with unless the batch is lost. -/
structure Batch where
  events : List Event
  rows : Option (List Committed)

/-- What has been committed of batches. -/
def committed (bs : List Batch) : List Committed := bs.flatMap (·.rows.getD [])

/-- The batch that the writer would write now. -/
def Writer.batch {σ : Type} (w : Writer σ) : Batch where
  events := w.buffer
  rows := (w.database.flush w.buffer w.behind).1.toOption

/-- What the writer answers when it writes is what its batch has come to. -/
theorem Writer.store_eq {σ : Type} (w : Writer σ) : w.store =
    (w.batch.rows.getD [], { w with
      buffer := []
      behind := (w.database.flush w.buffer w.behind).2 }) := by
  rw [store, batch]
  rcases w.database.flush w.buffer w.behind with ⟨_ | cs, s⟩ <;> rfl

/-- The rows that come of a batch are numbered on from those before, and are
in the table when the writer has done with it. -/
theorem Writer.batch_rows {w : Writer Connection} {t : Table}
    (hdatabase : w.database = Connection.database) (ht : w.behind.file.table = some t) :
    let rows := w.batch.rows.getD []
    let behind := (w.database.flush w.buffer w.behind).2
    (∀ cs, w.batch.rows = some cs → cs.map (·.event) = w.buffer) ∧
      rows = numbered t.lastId (rows.map (·.event)) ∧
      behind.file.table = some (t.addAll (rows.map (·.event))) ∧
      (if w.batch.rows.isNone then 1 else 0) + behind.pending ≤ w.behind.pending := by
  have houtcome := Connection.flush_outcome w.buffer ht
  rw [Writer.batch, hdatabase]
  generalize Connection.database.flush w.buffer w.behind = r at houtcome ⊢
  cases houtcome with
  | @lost _ c' table spent =>
    refine ⟨fun _ h => (nomatch h), rfl, table, ?_⟩
    show 1 + c'.pending ≤ _
    omega
  | written table spent =>
    refine ⟨fun cs h => ?_, ?_, ?_, ?_⟩
    · cases h
      exact numbered_events ..
    · simp only [Except.toOption, Option.getD_some, numbered_events]
    · simpa only [Except.toOption, Option.getD_some, numbered_events] using table
    · rw [if_neg (by simp [Except.toOption]), Nat.zero_add]
      exact spent

/-- What the writer is about. -/
inductive Phase where
  /-- It waits for an event, or for its interval to be over. -/
  | waiting
  /-- It tells of what it has committed, and stops behind the last batch. -/
  | telling (untold : List Committed) (last : Bool)
  | stopped
  deriving DecidableEq

/-- What is committed but has not been told. -/
def Phase.untold : Phase → List Committed
  | telling cs _ => cs
  | _ => []

structure Pipeline where
  queue : Queue Event
  writer : Writer Connection
  phase : Phase := .waiting
  /-- Whether there is anybody left who publishes. -/
  senders : Bool := true
  /-- All that the queue has taken, in the order of publishing. No step looks at it. -/
  accepted : List Event := []
  /-- All that the writer has written or lost. No step looks at it. -/
  batches : List Batch := []

/-- What can happen next. The moves of the writer are the last three. -/
inductive Move where
  | publish (e : Event)
  /-- The last of those who publish goes. -/
  | close
  | receive
  | tick
  | tell

/-- The moves that the writer makes when its interval is never over. -/
def Move.IsWriters : Move → Prop
  | receive | tell => True
  | _ => False

namespace Pipeline

/-- The writer writes what it has gathered; behind the last batch it will stop. -/
def store (p : Pipeline) (last : Bool) : Pipeline := { p with
  writer := p.writer.store.2
  phase := .telling p.writer.store.1 last
  batches := if p.writer.buffer.isEmpty then p.batches else p.batches ++ [p.writer.batch] }

/-- The writer takes the next event from the queue, or sees that none will come. -/
def receive (p : Pipeline) : Pipeline :=
  match p.queue.take with
  | (some e, queue) =>
    let p := { p with queue, writer := p.writer.gather e }
    if p.writer.isFull then p.store false else p
  | (none, _) => if p.senders then p else p.store true

def step (p : Pipeline) : Move → Pipeline
  | .publish e =>
    if p.senders then
      let queue := p.queue.publish e
      let taken := p.queue.items.length < queue.items.length
      { p with queue, accepted := if taken then p.accepted ++ [e] else p.accepted }
    else p
  | .close => { p with senders := false }
  | .receive =>
    match p.phase with
    | .waiting => p.receive
    | _ => p
  | .tick =>
    match p.phase with
    | .waiting => p.store false
    | _ => p
  | .tell =>
    match p.phase with
    | .telling (c :: untold) last =>
      { p with writer := p.writer.tell c, phase := .telling untold last }
    | .telling [] false => { p with phase := .waiting }
    | .telling [] true => { p with phase := .stopped, queue := p.queue.close }
    | _ => p

def run (p : Pipeline) (ms : List Move) : Pipeline := ms.foldl step p

/-- The writer on a log with some rows, before anything is published. -/
def start (capacity batchSize : Nat) (live : Nat) (table : Table)
    (faults : List (Option SqlFault)) : Pipeline where
  queue := .ofCapacity capacity
  writer :=
    { database := Connection.database
      batchSize
      live := { capacity := live }
      behind := { file := { table := some table }, faults } }

/-! ## What holds all along -/

/-- What holds of a pipeline with room for `n` events and for batches of `k`
that began on the table `t` with `f` faults to come, also while the writer has
an event in hand that may make its batch a whole one. -/
structure Sound (n k f : Nat) (t : Table) (p : Pipeline) : Prop where
  capacity : p.queue.capacity = max n 1
  fits : p.queue.items.length ≤ p.queue.capacity
  reads : p.senders = true → p.queue.isOpen = true
  database : p.writer.database = Connection.database
  batchSize : p.writer.batchSize = k
  small : p.writer.buffer.length ≤ k
  /-- Nothing that was taken is missing, and nothing is there twice. -/
  kept : p.accepted = p.batches.flatMap (·.events) ++ p.writer.buffer ++ p.queue.items
  sized : ∀ b ∈ p.batches, 1 ≤ b.events.length ∧ b.events.length ≤ k
  whole : ∀ b ∈ p.batches, ∀ cs, b.rows = some cs → cs.map (·.event) = b.events
  /-- Every batch that is lost has cost a fault. -/
  lost : p.batches.countP (·.rows.isNone) + p.writer.behind.pending ≤ f
  counted : committed p.batches = numbered t.lastId ((committed p.batches).map (·.event))
  table : p.writer.behind.file.table = some (t.addAll ((committed p.batches).map (·.event)))
  told : p.writer.live.sent ++ p.phase.untold = committed p.batches
  /-- Behind the last batch nothing is left. -/
  last : p.phase = .stopped ∨ (∃ cs, p.phase = .telling cs true) →
    p.senders = false ∧ p.writer.buffer = [] ∧ p.queue.items = []

/-- What holds between two moves: the writer has less than a whole batch. -/
structure Ready (n k f : Nat) (t : Table) (p : Pipeline) : Prop extends Sound n k f t p where
  room : p.writer.buffer.length < k

variable {n k f : Nat} {t : Table} {p : Pipeline}

theorem Ready.start (live : Nat) (faults : List (Option SqlFault)) (hk : 1 ≤ k) :
    Ready n k (faults.countP (·.isSome)) t (start n k live t faults) where
  capacity := rfl
  fits := Nat.zero_le _
  reads _ := rfl
  database := rfl
  batchSize := rfl
  small := Nat.zero_le _
  kept := rfl
  sized := by simp [Pipeline.start]
  whole := by simp [Pipeline.start]
  lost := by simp [Pipeline.start, Connection.pending]
  counted := rfl
  table := rfl
  told := rfl
  last := by simp [Pipeline.start]
  room := hk

/-! ### Publishing -/

/-- What publishing comes to is decided by how much the queue holds. -/
theorem Sound.step_publish (h : Sound n k f t p) (hs : p.senders = true) (e : Event) :
    p.step (.publish e) =
      if p.queue.items.length = max n 1 then p
      else { p with
        queue := { p.queue with items := p.queue.items ++ [e] }
        accepted := p.accepted ++ [e] } := by
  have hfits := h.fits
  have hcap := h.capacity
  simp only [step, hs, if_true, Queue.publish, Queue.hasRoom, h.reads hs, Bool.true_and,
    decide_eq_true_eq]
  by_cases hfull : p.queue.items.length = max n 1
  · rw [if_pos hfull, if_neg (by omega)]
    simp [← hs]
  · rw [if_neg hfull, if_pos (by omega)]
    simp [← hs]

theorem Ready.publish (h : Ready n k f t p) (e : Event) : Ready n k f t (p.step (.publish e)) := by
  cases hs : p.senders with
  | false => simpa [step, hs] using h
  | true =>
    rw [h.step_publish hs]
    split
    next => exact h
    next hroom =>
      have hfits := h.fits
      have hcap := h.capacity
      exact { h with
        fits := by
          simp only [List.length_append, List.length_cons, List.length_nil]
          omega
        kept := by simp [h.kept]
        last := fun hlast => by
          have hgone := (h.last hlast).1
          simp [hs] at hgone }

theorem Ready.close (h : Ready n k f t p) : Ready n k f t (p.step .close) :=
  { h with
    reads := fun hs => (nomatch hs)
    last := fun hlast => ⟨rfl, (h.last hlast).2⟩ }

/-! ### Writing -/

section

variable {last : Bool}

theorem writer_store : (p.store last).writer = { p.writer with
    buffer := []
    behind := (p.writer.database.flush p.writer.buffer p.writer.behind).2 } := by
  rw [store, Writer.store_eq]

theorem phase_store :
    (p.store last).phase = .telling (p.writer.batch.rows.getD []) last := by
  rw [store, Writer.store_eq]

theorem committed_store :
    committed (p.store last).batches = committed p.batches ++ p.writer.batch.rows.getD [] := by
  rw [store]
  split
  next hempty =>
    have hnone : p.writer.batch.rows = some [] := by
      simp [Writer.batch, Database.flush, hempty, Except.toOption]
    simp [hnone]
  next => simp [committed]

theorem events_store : (p.store last).batches.flatMap (·.events)
    = p.batches.flatMap (·.events) ++ p.writer.buffer := by
  rw [store]
  split
  next hempty => simp [List.isEmpty_iff.mp hempty]
  next => simp [Writer.batch]

theorem mem_store {b : Batch} (hb : b ∈ (p.store last).batches) :
    b ∈ p.batches ∨ (b = p.writer.batch ∧ p.writer.buffer ≠ []) := by
  rw [store] at hb
  split at hb
  next => exact .inl hb
  next hne =>
    rcases List.mem_append.mp hb with hb | hb
    · exact .inl hb
    · exact .inr ⟨List.mem_singleton.mp hb, by simpa using hne⟩

theorem countP_store (p : Pipeline) (last : Bool) :
    (p.store last).batches.countP (·.rows.isNone)
      ≤ p.batches.countP (·.rows.isNone) + if p.writer.batch.rows.isNone then 1 else 0 := by
  rw [store]
  split
  next => exact Nat.le_add_right ..
  next => exact Nat.le_of_eq (by simp only [List.countP_append, List.countP_singleton])

/-- Whatever becomes of a batch, the writer is left without one, and the batch
is accounted for. -/
theorem Sound.store (h : Sound n k f t p) (hp : p.phase = .waiting) (hk : 1 ≤ k)
    (hlast : last = true → p.senders = false ∧ p.queue.items = []) :
    Ready n k f t (p.store last) := by
  obtain ⟨hwhole, hcounted, htable, hspent⟩ := Writer.batch_rows h.database h.table
  have htold : p.writer.live.sent = committed p.batches := by
    simpa [hp, Phase.untold] using h.told
  exact {
    capacity := h.capacity
    fits := h.fits
    reads := h.reads
    database := by rw [writer_store, h.database]
    batchSize := by rw [writer_store, h.batchSize]
    small := by simp [writer_store]
    kept := by
      rw [events_store, writer_store]
      simpa [Pipeline.store] using h.kept
    sized := fun b hb => by
      rcases mem_store hb with hb | ⟨rfl, hne⟩
      · exact h.sized b hb
      · exact ⟨List.length_pos_iff.mpr hne, h.small⟩
    whole := fun b hb cs hcs => by
      rcases mem_store hb with hb | ⟨rfl, _⟩
      · exact h.whole b hb cs hcs
      · exact hwhole cs hcs
    lost := by
      have hlost := h.lost
      have hone := countP_store p last
      rw [writer_store]
      show _ + (p.writer.database.flush p.writer.buffer p.writer.behind).2.pending ≤ f
      omega
    counted := by
      rw [Table.addAll_eq] at hcounted
      rw [committed_store, List.map_append, numbered_append, ← h.counted, ← hcounted]
    table := by
      rw [committed_store, List.map_append, Table.addAll, List.foldl_append, writer_store]
      exact htable
    told := by rw [committed_store, writer_store, phase_store, htold, Phase.untold]
    last := fun hl => by
      have hl : last = true := by simpa [phase_store] using hl
      exact ⟨(hlast hl).1, by rw [writer_store], (hlast hl).2⟩
    room := by
      rw [writer_store]
      exact hk }

end

/-! ### The moves of the writer -/

/-- A batch has room for an event. -/
theorem Ready.one_le (h : Ready n k f t p) : 1 ≤ k :=
  Nat.lt_of_le_of_lt (Nat.zero_le _) h.room

theorem Ready.tick (h : Ready n k f t p) : Ready n k f t (p.step .tick) := by
  rw [step]
  split
  next hp => exact h.store hp h.one_le (fun hlast => (nomatch hlast))
  next => exact h

theorem Ready.receive (h : Ready n k f t p) : Ready n k f t (p.step .receive) := by
  rw [step]
  split
  case h_2 => exact h
  case h_1 hp =>
    rw [Pipeline.receive, Queue.take]
    cases hitems : p.queue.items with
    | nil =>
      cases hs : p.senders with
      | true => simpa [hs] using h
      | false =>
        have hstored : Ready n k f t (p.store true) := h.store hp h.one_le fun _ => ⟨hs, hitems⟩
        simpa [hs] using hstored
    | cons e items =>
      have hfits := h.fits
      have hroom := h.room
      rw [hitems, List.length_cons] at hfits
      have hsound : Sound n k f t { p with
          queue := { p.queue with items }
          writer := p.writer.gather e } := { h with
        fits := by
          dsimp only
          omega
        small := by
          simp only [Writer.gather, List.length_append, List.length_cons, List.length_nil]
          omega
        kept := by simp [h.kept, Writer.gather, hitems]
        last := by simp [hp] }
      dsimp only
      split
      next => exact hsound.store hp h.one_le (fun hlast => (nomatch hlast))
      next hnot =>
        have hsize := h.batchSize
        exact { hsound with
          room := by
            simp [Writer.isFull, Writer.gather] at hnot ⊢
            omega }

theorem Ready.tell (h : Ready n k f t p) : Ready n k f t (p.step .tell) := by
  have htold := h.told
  rw [step]
  split
  case h_1 c untold last hp =>
    rw [hp] at htold
    exact { h with
      told := by simpa [Writer.tell, Broadcast.send, Phase.untold] using htold
      last := fun hl => h.last (.inr ⟨c :: untold, by simpa [hp] using hl⟩) }
  case h_2 hp =>
    rw [hp] at htold
    exact { h with
      told := htold
      last := by simp }
  case h_3 hp =>
    obtain ⟨hs, hbuffer, hitems⟩ := h.last (.inr ⟨[], hp⟩)
    rw [hp] at htold
    exact { h with
      fits := Nat.zero_le _
      reads := by simp [hs]
      kept := by simpa [Queue.close, hitems] using h.kept
      told := htold
      last := fun _ => ⟨hs, hbuffer, rfl⟩ }
  case h_4 => exact h

theorem Ready.step (h : Ready n k f t p) (m : Move) : Ready n k f t (p.step m) := by
  cases m with
  | publish e => exact h.publish e
  | close => exact h.close
  | receive => exact h.receive
  | tick => exact h.tick
  | tell => exact h.tell

theorem Ready.run (h : Ready n k f t p) (ms : List Move) : Ready n k f t (p.run ms) := by
  induction ms generalizing p with
  | nil => exact h
  | cons m ms ih => exact ih (h.step m)

/-! ## Coming to an end -/

theorem run_append (ms ms' : List Move) : p.run (ms ++ ms') = (p.run ms).run ms' := by
  rw [run, List.foldl_append, ← run, ← run]

theorem run_tells {cs : List Committed} {last : Bool} (hp : p.phase = .telling cs last) :
    p.run (List.replicate (cs.length + 1) .tell) = { p with
      writer := cs.foldl Writer.tell p.writer
      phase := if last then .stopped else .waiting
      queue := if last then p.queue.close else p.queue } := by
  induction cs generalizing p with
  | nil => cases last <;> simp [run, step, hp]
  | cons c cs ih =>
    have hstep : p.step .tell = { p with
        writer := p.writer.tell c
        phase := .telling cs last } := by
      rw [step]
      simp only [hp]
    rw [List.length_cons, List.replicate_succ, run, List.foldl_cons, ← run, hstep, ih rfl]
    rfl

theorem isWriters_tells (n : Nat) : ∀ m ∈ List.replicate n Move.tell, m.IsWriters := by
  intro m hm
  rw [List.eq_of_mem_replicate hm]
  trivial

theorem step_receive (hp : p.phase = .waiting) : p.step .receive = p.receive := by
  rw [step]
  simp only [hp]

/-- Writing, then telling of it, is what the writer does when it flushes. -/
theorem run_flush (p : Pipeline) (last : Bool) :
    ∃ ms, (∀ m ∈ ms, m.IsWriters) ∧ (p.store last).run ms = { p.store last with
      writer := p.writer.flush
      phase := if last then .stopped else .waiting
      queue := if last then p.queue.close else p.queue } := by
  exact ⟨List.replicate (p.writer.store.1.length + 1) .tell, isWriters_tells _, run_tells rfl⟩

/-- **When nobody is left who publishes, the writer empties the queue and
stops**, and it has then done what it does with all that was queued. -/
theorem run_drains (hp : p.phase = .waiting) (hs : p.senders = false) :
    ∃ ms, (∀ m ∈ ms, m.IsWriters) ∧ (p.run ms).phase = .stopped ∧
      (p.run ms).writer = p.writer.run p.queue.items := by
  generalize hitems : p.queue.items = items
  induction items generalizing p with
  | nil =>
    have hlast : p.receive = p.store true := by
      rw [receive, Queue.take]
      simp only [hitems, hs, Bool.false_eq_true, if_false]
    obtain ⟨ms, hms, hrun⟩ := p.run_flush true
    refine ⟨.receive :: ms, List.forall_mem_cons.mpr ⟨trivial, hms⟩, ?_⟩
    rw [run, List.foldl_cons, ← run, step_receive hp, hlast, hrun]
    exact ⟨rfl, rfl⟩
  | cons e items ih =>
    -- The event is received, and if that makes a batch, it is written and told of.
    have hreceived : ∃ ms, (∀ m ∈ ms, m.IsWriters) ∧ (p.receive.run ms).phase = .waiting ∧
        (p.receive.run ms).senders = false ∧ (p.receive.run ms).queue.items = items ∧
        (p.receive.run ms).writer = p.writer.receive e := by
      rw [receive, Queue.take]
      simp only [hitems]
      rw [Writer.receive]
      split
      next =>
        obtain ⟨ms, hms, hrun⟩ := run_flush { p with
          queue := { p.queue with items }
          writer := p.writer.gather e } false
        refine ⟨ms, hms, ?_⟩
        rw [hrun]
        exact ⟨rfl, hs, rfl, rfl⟩
      next => exact ⟨[], by simp, hp, hs, rfl, rfl⟩
    obtain ⟨ms, hms, hp', hs', hitems', hwriter⟩ := hreceived
    obtain ⟨ms', hms', hstopped, hdone⟩ := ih hp' hs' hitems'
    refine ⟨.receive :: (ms ++ ms'), ?_, ?_⟩
    · exact List.forall_mem_cons.mpr ⟨trivial, List.forall_mem_append.mpr ⟨hms, hms'⟩⟩
    · rw [run, List.foldl_cons, ← run, step_receive hp, run_append]
      refine ⟨hstopped, ?_⟩
      rw [hdone, hwriter, Writer.run, Writer.run, List.foldl_cons]

theorem run_stops (p : Pipeline) :
    ∃ ms, (∀ m ∈ ms, m.IsWriters) ∧ ((p.step .close).run ms).phase = .stopped := by
  cases hp : p.phase with
  | waiting =>
    obtain ⟨ms, hms, hstopped, _⟩ := run_drains (p := p.step .close) hp rfl
    exact ⟨ms, hms, hstopped⟩
  | stopped => exact ⟨[], by simp, hp⟩
  | telling cs last =>
    have htells := run_tells (p := p.step .close) hp
    have hmoves := isWriters_tells (cs.length + 1)
    cases last with
    | true => exact ⟨_, hmoves, by rw [htells]; rfl⟩
    | false =>
      obtain ⟨ms, hms, hstopped, _⟩ :=
        run_drains (p := (p.step .close).run (List.replicate (cs.length + 1) .tell))
          (by rw [htells]; rfl) (by rw [htells]; rfl)
      refine ⟨_ ++ ms, List.forall_mem_append.mpr ⟨hmoves, hms⟩, ?_⟩
      rw [run_append]
      exact hstopped

/-! ## The law -/

/-- What can be said at any time of a pipeline with room for `n` events and
for batches of `k` that began on the table `t` with `f` faults to come. -/
structure Accounted (n k f : Nat) (t : Table) (p : Pipeline) : Prop where
  /-- An event is turned away exactly when the queue is full. -/
  offered : p.senders = true → ∀ e, p.step (.publish e) =
    if p.queue.items.length = max n 1 then p
    else { p with
      queue := { p.queue with items := p.queue.items ++ [e] }
      accepted := p.accepted ++ [e] }
  /-- Those who publish never find the writer gone. -/
  alive : p.senders = true → p.phase ≠ .stopped ∧ p.queue.isOpen = true
  /-- What was taken is where it is in the order of publishing. -/
  kept : p.accepted = p.batches.flatMap (·.events) ++ p.writer.buffer ++ p.queue.items
  /-- A batch that is not lost has all of its events committed, in order. -/
  whole : ∀ b ∈ p.batches, ∀ cs, b.rows = some cs → cs.map (·.event) = b.events
  /-- No batch is lost unless something has gone wrong for it. -/
  lost : p.batches.countP (·.rows.isNone) ≤ f
  /-- The table has the rows of what is committed, and no others that are new. -/
  table : p.writer.behind.file.table = some {
    rows := t.rows ++ (committed p.batches).map (·.row)
    lastId := t.lastId + (committed p.batches).length }
  rising : ((committed p.batches).map (·.id)).Pairwise (· < ·)
  later : ∀ c ∈ committed p.batches, t.lastId < c.id
  /-- What is committed is told once and in order, and nothing else is told. -/
  told : p.writer.live.sent ++ p.phase.untold = committed p.batches
  small : p.writer.buffer.length ≤ k ∧
    ∀ b ∈ p.batches, 1 ≤ b.events.length ∧ b.events.length ≤ k
  /-- When the writer has stopped, nothing is left anywhere. -/
  ended : p.phase = .stopped → p.senders = false ∧
    p.accepted = p.batches.flatMap (·.events) ∧ p.writer.live.sent = committed p.batches
  /-- The writer stops when nobody is left who publishes. -/
  ends : ∃ ms, (∀ m ∈ ms, m.IsWriters) ∧ ((p.step .close).run ms).phase = .stopped
  /-- It has then done what it does with all that is queued when it waits. -/
  drained : p.phase = .waiting → ∃ ms, (∀ m ∈ ms, m.IsWriters) ∧
    ((p.step .close).run ms).phase = .stopped ∧
    ((p.step .close).run ms).writer = p.writer.run p.queue.items

theorem Ready.accounted (h : Ready n k f t p) : Accounted n k f t p where
  offered := h.step_publish
  alive hs := ⟨fun hp => by simp [(h.last (.inl hp)).1] at hs, h.reads hs⟩
  kept := h.kept
  whole := h.whole
  lost := Nat.le_trans (Nat.le_add_right ..) h.lost
  table := by rw [h.table, Table.addAll_eq, List.length_map, ← h.counted]
  rising := by
    rw [h.counted, numbered_ids]
    exact List.pairwise_lt_range'
  later c hc := by
    have hid : c.id ∈ (committed p.batches).map (·.id) := List.mem_map_of_mem hc
    rw [h.counted, numbered_ids, List.mem_range'] at hid
    omega
  told := h.told
  small := ⟨h.small, h.sized⟩
  ended hp := by
    obtain ⟨hs, hbuffer, hitems⟩ := h.last (.inl hp)
    refine ⟨hs, ?_, ?_⟩
    · simpa [hbuffer, hitems] using h.kept
    · simpa [hp, Phase.untold] using h.told
  ends := p.run_stops
  drained hp := run_drains (p := p.step .close) hp rfl

/-- **The way of an event keeps the order, doubles nothing, and loses only
what it says it loses**, in whatever order publishing, the moves of the writer
and the end of publishing come, and whatever goes wrong with the file. -/
theorem run_accounted (n k live : Nat) (t : Table) (faults : List (Option SqlFault))
    (ms : List Move) (hk : 1 ≤ k) :
    Accounted n k (faults.countP (·.isSome)) t ((start n k live t faults).run ms) :=
  ((Ready.start live faults hk).run ms).accounted

/-- Of five events one finds the queue full, two get lost with the batch whose
second row cannot be written, and two are in the log and have been told when
the writer has stopped. -/
theorem run_accounted_lossy :
    let event (s : String) : Event := { ts := .epoch, kind := .registryMutated, detail := s }
    let ms : List Move := [
      .publish (event "a"), .publish (event "x"), .receive, .publish (event "b"), .receive, .tell,
      .publish (event "c"), .receive, .tick, .publish (event "d"), .tell, .tell,
      .close, .receive, .receive, .tell, .tell]
    let p := (start 0 2 1 { lastId := 7 } [none, none, some .failed]).run ms
    1 ≤ 2 ∧ Accounted 0 2 1 { lastId := 7 } p ∧
      p.accepted = [event "a", event "b", event "c", event "d"] ∧
      p.writer.live.sent = [⟨8, event "c"⟩, ⟨9, event "d"⟩] ∧ p.phase = .stopped := by
  intro event ms p
  have h : Accounted 0 2 1 { lastId := 7 } p :=
    run_accounted 0 2 1 { lastId := 7 } [none, none, some .failed] ms (by decide)
  exact ⟨by decide, h, by decide +kernel, by decide +kernel, by decide +kernel⟩

end Pipeline

end Interpose.Log
