/-
Interpose.Proofs.Log.Locked — what a locked database does to a batch.

Somebody else may hold the database when a transaction is to begin, at an
insert, or at the commit. Only beginning is tried again: a database *admits*
a batch if it is locked for the first few attempts to begin, not more often
than they are made again, and then for none of the steps that the batch
takes. A batch that is admitted gets its rows, all of them and each once. Any
other batch is given up with the lock that it met (`flush_comes`), although
nothing is the matter with it or with the database, and the writer drops it
(`Writer.store_comes`).

Main statement: `flush_locked`. That few locks alone are not enough, wherever
they are met, is `flush_locked_late`.
-/
import Interpose.Proofs.Log.Flush

namespace Interpose.Log

namespace Connection

variable {c : Connection} {t w : Table} {faults rest : List (Option SqlFault)} {n : Nat}

/-! ## Locks -/

/-- Nothing goes wrong but that the database is locked. -/
def OnlyLocked (c : Connection) : Prop := ∀ e, some e ∈ c.faults → e = .locked

/-- None of the next `n` steps finds the database locked. -/
def FreeFor (n : Nat) (faults : List (Option SqlFault)) : Prop := some .locked ∉ faults.take n

/-- The database may be locked for so many attempts to begin a transaction,
and is then free for all of one in which `n` events are added: for its
beginning, the events and the commit. -/
def AdmitsWithin (tries n : Nat) (faults : List (Option SqlFault)) : Prop :=
  ∃ k later, k ≤ tries ∧ faults = List.replicate k (some .locked) ++ later ∧ FreeFor (n + 2) later

/-- The database admits a batch of `n` events. -/
def Admits (c : Connection) (n : Nat) : Prop := AdmitsWithin retries n c.faults

theorem freeFor_zero (faults : List (Option SqlFault)) : FreeFor 0 faults := List.not_mem_nil

theorem not_freeFor_locked : ¬ FreeFor (n + 1) (some .locked :: rest) :=
  fun h => h List.mem_cons_self

theorem freeFor_tail (hhead : faults.head? ≠ some (some .locked)) :
    FreeFor (n + 1) faults ↔ FreeFor n faults.tail := by
  cases faults with
  | nil => simp [FreeFor]
  | cons f rest =>
    have hne : some SqlFault.locked ≠ f := fun h => hhead (congrArg some h.symm)
    simp [FreeFor, hne]

theorem admitsWithin_of_head {tries : Nat} (hhead : faults.head? ≠ some (some .locked)) :
    AdmitsWithin tries n faults ↔ FreeFor (n + 2) faults := by
  constructor
  · rintro ⟨k, later, -, rfl, hfree⟩
    cases k with
    | zero => exact hfree
    | succ k => exact absurd rfl hhead
  · exact fun h => ⟨0, faults, Nat.zero_le _, rfl, h⟩

theorem not_admitsWithin_zero : ¬ AdmitsWithin 0 n (some .locked :: rest) := by
  rintro ⟨k, later, hk, heq, hfree⟩
  obtain rfl := Nat.le_zero.mp hk
  obtain rfl : some .locked :: rest = later := heq
  exact not_freeFor_locked hfree

theorem admitsWithin_succ {tries : Nat} :
    AdmitsWithin (tries + 1) n (some .locked :: rest) ↔ AdmitsWithin tries n rest := by
  constructor
  · rintro ⟨k, later, hk, heq, hfree⟩
    cases k with
    | zero =>
      obtain rfl : some .locked :: rest = later := heq
      exact absurd hfree not_freeFor_locked
    | succ k => exact ⟨k, later, Nat.le_of_succ_le_succ hk, (List.cons.inj heq).2, hfree⟩
  · rintro ⟨k, later, hk, rfl, hfree⟩
    exact ⟨k + 1, later, Nat.succ_le_succ hk, rfl, hfree⟩

/-! ## One step -/

theorem OnlyLocked.tail {file : LogFile} (ho : c.OnlyLocked) :
    OnlyLocked { file, faults := c.faults.tail } :=
  fun e he => ho e (List.mem_of_mem_tail he)

theorem head_locked (c : Connection) :
    (∃ rest, c.faults = some .locked :: rest) ∨ c.faults.head? ≠ some (some .locked) := by
  rcases c.faults with _ | ⟨_ | _ | _, rest⟩
  · exact .inr (by simp)
  · exact .inr (by simp)
  · exact .inl ⟨rest, rfl⟩
  · exact .inr (by simp)

theorem attempt_locked {α : Type} (f : LogFile → Except SqlFault α × LogFile)
    (h : c.faults = some .locked :: rest) :
    c.attempt f = (.error .locked, { file := c.file, faults := rest }) := by
  rw [attempt, h]
  rfl

/-- A step that finds the database free is taken. -/
theorem attempt_free {α : Type} (f : LogFile → Except SqlFault α × LogFile) (ho : c.OnlyLocked)
    (hhead : c.faults.head? ≠ some (some .locked)) :
    c.attempt f = ((f c.file).1, { file := (f c.file).2, faults := c.faults.tail }) := by
  obtain ⟨file, faults⟩ := c
  rcases faults with _ | ⟨_ | e, rest⟩
  · rfl
  · rfl
  · obtain rfl := ho e List.mem_cons_self
    exact absurd rfl hhead

/-! ## One transaction -/

/-- Events are added up to the first that finds the database locked. -/
theorem insertAll_locked (es : List Event) (ho : c.OnlyLocked) (ht : c.file.table = some t)
    (hw : c.file.working = some w) :
    (∃ c', database.insertAll es c = (.ok (numbered w.lastId es), c') ∧ c'.OnlyLocked ∧
      c'.file.table = some t ∧ c'.file.working = some (w.addAll es) ∧
      ∀ n, FreeFor (es.length + n) c.faults ↔ FreeFor n c'.faults) ∨
    (∃ c', database.insertAll es c = (.error .locked, c') ∧ c'.file.table = some t ∧
      ∀ n, ¬ FreeFor (es.length + n) c.faults) := by
  induction es generalizing c w with
  | nil => exact .inl ⟨c, rfl, ho, ht, hw, fun n => by rw [List.length_nil, Nat.zero_add]⟩
  | cons e es ih =>
    have hinsert : database.insert e c = c.attempt (LogFile.database.insert e) := rfl
    have hadd : LogFile.database.insert e c.file
        = (.ok (w.lastId + 1), { c.file with working := some (w.add e) }) := by
      simp [LogFile.database, hw]
    have hlen : ∀ n, (e :: es).length + n = (es.length + n) + 1 := by
      intro n
      rw [List.length_cons]
      omega
    rw [Database.insertAll, hinsert]
    rcases head_locked c with ⟨rest, hrest⟩ | hhead
    · rw [attempt_locked _ hrest]
      refine .inr ⟨_, rfl, ht, fun n => ?_⟩
      rw [hlen, hrest]
      exact not_freeFor_locked
    · rw [attempt_free _ ho hhead, hadd]
      dsimp only
      rcases ih (c := { file := { c.file with working := some (w.add e) }, faults := c.faults.tail })
        ho.tail ht rfl with ⟨c', hok, ho', ht', hw', hfree⟩ | ⟨c', herror, ht', hfree⟩
      · rw [hok]
        refine .inl ⟨c', rfl, ho', ht', hw', fun n => ?_⟩
        rw [hlen, freeFor_tail hhead]
        exact hfree n
      · rw [herror]
        refine .inr ⟨c', rfl, ht', fun n => ?_⟩
        rw [hlen, freeFor_tail hhead]
        exact hfree n

/-- What comes of a batch: all of it is written if it is admitted, and it is
given up for a lock, with nothing of it written, if it is not. -/
inductive Comes (t : Table) (es : List Event) (admitted : Prop) :
    Except SqlFault (List Committed) × Connection → Prop
  | written {c' : Connection} (admits : admitted) (table : c'.file.table = some (t.addAll es)) :
      Comes t es admitted (.ok (numbered t.lastId es), c')
  | barred {c' : Connection} (refuses : ¬ admitted) (table : c'.file.table = some t) :
      Comes t es admitted (.error .locked, c')

theorem writeAll_comes (es : List Event) (ho : c.OnlyLocked) (ht : c.file.table = some t)
    (hw : c.file.working = some t) :
    Comes t es (FreeFor (es.length + 1) c.faults) (database.writeAll es c) := by
  rw [Database.writeAll]
  rcases insertAll_locked es ho ht hw with ⟨c', hok, ho', ht', hw', hfree⟩ | ⟨c', herror, ht', hfree⟩
  · have hcommit : database.commit c' = c'.attempt LogFile.database.commit := rfl
    rw [hok, hfree]
    dsimp only
    rw [hcommit]
    rcases head_locked c' with ⟨rest, hrest⟩ | hhead
    · rw [attempt_locked _ hrest, hrest]
      exact .barred not_freeFor_locked ht'
    · rw [attempt_free _ ho' hhead]
      exact .written ((freeFor_tail hhead).mpr (freeFor_zero _)) hw'
  · rw [herror]
    exact .barred (hfree 1) ht'

theorem flushWith_comes (es : List Event) (tries : Nat) (ho : c.OnlyLocked)
    (ht : c.file.table = some t) :
    Comes t es (AdmitsWithin tries es.length c.faults) (database.flushWith es tries c) := by
  have hbegin (c : Connection) : database.begin c = c.attempt LogFile.database.begin := rfl
  have hfirst (c : Connection) (tries : Nat) (ho : c.OnlyLocked) (ht : c.file.table = some t)
      (hhead : c.faults.head? ≠ some (some .locked)) :
      Comes t es (AdmitsWithin tries es.length c.faults) (database.flushWith es tries c) := by
    rw [Database.flushWith, hbegin, attempt_free _ ho hhead, admitsWithin_of_head hhead,
      freeFor_tail hhead]
    exact writeAll_comes es ho.tail ht ht
  induction tries generalizing c with
  | zero =>
    rcases head_locked c with ⟨rest, hrest⟩ | hhead
    · rw [Database.flushWith, hbegin, attempt_locked _ hrest, hrest]
      exact .barred not_admitsWithin_zero ht
    · exact hfirst c 0 ho ht hhead
  | succ tries ih =>
    rcases head_locked c with ⟨rest, hrest⟩ | hhead
    · have ho' : OnlyLocked { file := c.file, faults := rest } :=
        fun e he => ho e (hrest ▸ List.mem_cons_of_mem _ he)
      rw [Database.flushWith, hbegin, attempt_locked _ hrest, hrest, admitsWithin_succ]
      exact ih (c := { file := c.file, faults := rest }) ho' ht
    · exact hfirst c (tries + 1) ho ht hhead

/-! ## One batch -/

/-- **A batch is written if the database admits it**, and given up for a lock
if not. With no events there is nothing to be locked for. -/
theorem flush_comes (es : List Event) (ho : c.OnlyLocked) (ht : c.file.table = some t) :
    Comes t es (es = [] ∨ c.Admits es.length) (database.flush es c) := by
  rw [Database.flush]
  split
  next h =>
    obtain rfl := List.isEmpty_iff.mp h
    exact .written (.inl rfl) ht
  next h =>
    have hne : es ≠ [] := fun hnil => h (List.isEmpty_iff.mpr hnil)
    rw [or_iff_right hne]
    exact flushWith_comes es retries ho ht

/-- **Locks cost a batch nothing exactly if they are met at the beginning of
its transaction, five of them at most.** Then every event is committed once,
in order, under the numbers that are next. Otherwise none is, and the batch is
given up for the lock. -/
theorem flush_locked (es : List Event) (ho : c.OnlyLocked) (ht : c.file.table = some t) :
    ((es = [] ∨ c.Admits es.length) ↔ ∃ c',
      database.flush es c = (.ok (numbered t.lastId es), c') ∧
        c'.file.table = some (t.addAll es)) ∧
    (¬ (es = [] ∨ c.Admits es.length) ↔ ∃ c',
      database.flush es c = (.error .locked, c') ∧ c'.file.table = some t) := by
  have hcomes := flush_comes es ho ht
  generalize database.flush es c = answer at hcomes
  cases hcomes with
  | written admits table => simp [admits, table]
  | barred refuses table => simp [refuses, table]

/-- Five locks are outwaited, and both events get their rows. -/
theorem flush_locked_outwaited :
    let es : List Event := [{ ts := .epoch, kind := .registryMutated, detail := "a" },
      { ts := .epoch, kind := .registryMutated, detail := "b" }]
    let c : Connection := {
      file := { table := some { lastId := 7 } }
      faults := List.replicate 5 (some .locked) }
    c.OnlyLocked ∧ c.file.table = some { lastId := 7 } ∧
      ∃ c', database.flush es c = (.ok (numbered 7 es), c') ∧
        c'.file.table = some (Table.addAll { lastId := 7 } es) := by
  intro es c
  have ho : c.OnlyLocked := fun e he => Option.some.inj (List.eq_of_mem_replicate he)
  have hadmits : c.Admits es.length := ⟨5, [], Nat.le_refl 5, rfl, List.not_mem_nil⟩
  exact ⟨ho, rfl, (flush_locked es ho rfl).1.mp (.inr hadmits)⟩

/-- **A single lock that is met later costs a batch**: it is not enough that
the database is locked five times at most. -/
theorem flush_locked_late :
    ¬ ∀ (c : Connection) (t : Table) (es : List Event), c.OnlyLocked → c.pending ≤ retries →
      c.file.table = some t →
      ∃ c', database.flush es c = (.ok (numbered t.lastId es), c') ∧
        c'.file.table = some (t.addAll es) := by
  intro hall
  let es : List Event := [{ ts := .epoch, kind := .registryMutated, detail := "a" }]
  -- the transaction begins, and its first insert finds the database locked
  let c : Connection := { file := { table := some {} }, faults := [none, some .locked] }
  have ho : c.OnlyLocked := by
    intro e he
    rcases List.mem_cons.mp he with h | h
    · cases h
    · exact Option.some.inj (List.mem_singleton.mp h)
  obtain ⟨c', hok, -⟩ := hall c {} es ho (by decide) rfl
  have hlocked : (database.flush es c).1 = .error .locked := rfl
  rw [hok] at hlocked
  cases hlocked

end Connection

/-! ## The writer -/

/-- The writer tells of the rows of a batch that is admitted. One that is not
admitted it drops: its buffer is empty, and nothing was written. -/
theorem Writer.store_comes {w : Writer Connection} (hdb : w.database = Connection.database)
    {t : Table} (ho : w.behind.OnlyLocked) (ht : w.behind.file.table = some t) :
    ∃ told c', w.store = (told, { w with buffer := [], behind := c' }) ∧
      ((w.buffer = [] ∨ w.behind.Admits w.buffer.length) ∧ told = numbered t.lastId w.buffer ∧
          c'.file.table = some (t.addAll w.buffer) ∨
        ¬ (w.buffer = [] ∨ w.behind.Admits w.buffer.length) ∧ told = [] ∧
          c'.file.table = some t) := by
  have hcomes := Connection.flush_comes w.buffer ho ht
  rw [store, hdb]
  generalize Connection.database.flush w.buffer w.behind = answer at hcomes
  cases hcomes with
  | written admits table => exact ⟨_, _, rfl, .inl ⟨admits, rfl, table⟩⟩
  | barred refuses table => exact ⟨_, _, rfl, .inr ⟨refuses, rfl, table⟩⟩

end Interpose.Log
