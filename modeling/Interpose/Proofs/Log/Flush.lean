/-
Interpose.Proofs.Log.Flush — what becomes of a batch, whatever goes wrong.

A `Connection` is a log file together with all that is to go wrong with it:
for every step that is taken on the file there may be a fault that keeps it
from happening, be it the beginning of a transaction, any insert, or the
commit. Nothing is said of how faults follow one another, so what holds of
every connection holds however the file is disturbed.

A batch is written whole or not at all (`flush_outcome`): either the table
is as it was and a fault has been spent, or every event of the batch has a
row of its own, numbered on from the last number that was given out. Where
nothing goes wrong, a connection is the file itself (`flush_undisturbed`).
-/
import Interpose.Log.Writer

namespace Interpose

namespace Log

/-! ## Numbering -/

/-- Events with the numbers that follow one already given out. -/
def numbered (last : Nat) : List Event → List Committed
  | [] => []
  | e :: es => { id := last + 1, event := e } :: numbered (last + 1) es

theorem numbered_events (last : Nat) (es : List Event) :
    (numbered last es).map (·.event) = es := by
  induction es generalizing last with
  | nil => rfl
  | cons e es ih => rw [numbered, List.map_cons, ih]

theorem numbered_ids (last : Nat) (es : List Event) :
    (numbered last es).map (·.id) = List.range' (last + 1) es.length := by
  induction es generalizing last with
  | nil => rfl
  | cons e es ih => rw [numbered, List.map_cons, ih, List.length_cons, List.range'_succ]

theorem numbered_append (last : Nat) (es es' : List Event) :
    numbered last (es ++ es') = numbered last es ++ numbered (last + es.length) es' := by
  induction es generalizing last with
  | nil => rfl
  | cons e es ih =>
    rw [List.cons_append, numbered, ih, numbered, List.cons_append, List.length_cons]
    congr 3
    omega

/-- The row of an event that has been committed. -/
def Committed.row (c : Committed) : Row := .ofEvent c.id c.event

namespace Table

/-- Adds events one after the other. -/
def addAll (t : Table) (es : List Event) : Table := es.foldl add t

theorem addAll_eq (t : Table) (es : List Event) : t.addAll es = {
    rows := t.rows ++ (numbered t.lastId es).map (·.row)
    lastId := t.lastId + es.length } := by
  induction es generalizing t with
  | nil => simp [addAll, numbered]
  | cons e es ih =>
    rw [addAll, List.foldl_cons, ← addAll, ih]
    simp [add, insert, numbered, Committed.row]
    omega

end Table

/-! ## Connections -/

/-- A log file, and what is to go wrong with it. -/
structure Connection where
  file : LogFile
  /-- For each step from now on the fault that keeps it from happening, if
  one does; after the last of them nothing goes wrong. -/
  faults : List (Option SqlFault) := []

namespace Connection

/-- Takes a step, unless a fault keeps it from happening. -/
def attempt {α : Type} (f : LogFile → Except SqlFault α × LogFile) (c : Connection) :
    Except SqlFault α × Connection :=
  match c.faults.head?.join with
  | some e => (.error e, { c with faults := c.faults.tail })
  | none => ((f c.file).1, { file := (f c.file).2, faults := c.faults.tail })

/-- The file as a database that things go wrong with. Nothing keeps a
transaction from being rolled back. -/
def database : Database Connection where
  begin c := c.attempt LogFile.database.begin
  insert e c := c.attempt (LogFile.database.insert e)
  commit c := c.attempt LogFile.database.commit
  rollback c := { c with file := LogFile.database.rollback c.file }

/-- How much is still to go wrong. -/
def pending (c : Connection) : Nat := c.faults.countP (·.isSome)

variable {c c' : Connection} {t w : Table}

/-- A step that is not taken has cost a fault; one that is taken costs none. -/
theorem attempt_cases {α : Type} (f : LogFile → Except SqlFault α × LogFile) (c : Connection) :
    (∃ e c', c.attempt f = (.error e, c') ∧ c'.file = c.file ∧ c'.pending < c.pending) ∨
      ∃ c', c.attempt f = ((f c.file).1, c') ∧ c'.file = (f c.file).2 ∧ c'.pending ≤ c.pending := by
  obtain ⟨file, faults⟩ := c
  rcases faults with _ | ⟨_ | e, faults⟩
  · exact .inr ⟨_, rfl, rfl, Nat.le_refl _⟩
  · exact .inr ⟨_, rfl, rfl, Nat.le_of_eq (List.countP_cons_of_neg (by simp)).symm⟩
  · refine .inl ⟨e, _, rfl, rfl, ?_⟩
    rw [pending, pending, List.countP_cons_of_pos rfl]
    exact Nat.lt_succ_self _

/-- Inserting goes on to the first fault, and shows in no table until the commit. -/
theorem insertAll_cases (es : List Event) (ht : c.file.table = some t)
    (hw : c.file.working = some w) :
    ∃ c' : Connection, c'.file.table = some t ∧
      ((∃ e, database.insertAll es c = (.error e, c') ∧ c'.pending < c.pending) ∨
        (database.insertAll es c = (.ok (numbered w.lastId es), c') ∧
          c'.file.working = some (w.addAll es) ∧ c'.pending ≤ c.pending)) := by
  induction es generalizing c w with
  | nil => exact ⟨c, ht, .inr ⟨rfl, hw, Nat.le_refl _⟩⟩
  | cons e es ih =>
    have hinsert : database.insert e c = c.attempt (LogFile.database.insert e) := rfl
    have hadd : LogFile.database.insert e c.file
        = (.ok (w.lastId + 1), { c.file with working := some (w.add e) }) := by
      simp [LogFile.database, hw]
    rw [Database.insertAll, hinsert]
    rcases attempt_cases (LogFile.database.insert e) c with
      ⟨f, c₁, hfault, hsame, hspent⟩ | ⟨c₁, hdone, hfile, hspent⟩
    · rw [hfault]
      exact ⟨c₁, hsame ▸ ht, .inl ⟨f, rfl, hspent⟩⟩
    · rw [hadd] at hdone hfile
      rw [hdone]
      obtain ⟨c', ht', ⟨f, hf, hspent'⟩ | ⟨hok, hw', hspent'⟩⟩ :=
        ih (c := c₁) (w := w.add e) (by rw [hfile]; exact ht) (by rw [hfile])
      · exact ⟨c', ht', .inl ⟨f, by simp only [hf], Nat.lt_of_lt_of_le hspent' hspent⟩⟩
      · exact ⟨c', ht', .inr ⟨by simp only [hok]; rfl, hw', Nat.le_trans hspent' hspent⟩⟩

/-- What writing a batch can come to: the table is as it was, and something has
gone wrong; or it has all of the batch. -/
inductive Outcome (c : Connection) (t : Table) (es : List Event) :
    Except SqlFault (List Committed) × Connection → Prop
  | lost {e : SqlFault} {c' : Connection} (table : c'.file.table = some t)
      (spent : c'.pending < c.pending) : Outcome c t es (.error e, c')
  | written {c' : Connection} (table : c'.file.table = some (t.addAll es))
      (spent : c'.pending ≤ c.pending) : Outcome c t es (.ok (numbered t.lastId es), c')

theorem Outcome.mono {c₁ : Connection} {es : List Event}
    {r : Except SqlFault (List Committed) × Connection} (h : Outcome c₁ t es r)
    (hspent : c₁.pending ≤ c.pending) : Outcome c t es r := by
  cases h with
  | lost table spent => exact .lost table (Nat.lt_of_lt_of_le spent hspent)
  | written table spent => exact .written table (Nat.le_trans spent hspent)

theorem writeAll_outcome (es : List Event) (ht : c.file.table = some t)
    (hw : c.file.working = some t) : Outcome c t es (database.writeAll es c) := by
  rw [Database.writeAll]
  obtain ⟨c₁, ht₁, ⟨f, hf, hspent⟩ | ⟨hok, hw₁, hspent⟩⟩ := insertAll_cases es ht hw
  · rw [hf]
    exact .lost ht₁ hspent
  · have hcommit : database.commit c₁ = c₁.attempt LogFile.database.commit := rfl
    rw [hok]
    dsimp only
    rw [hcommit]
    rcases attempt_cases LogFile.database.commit c₁ with
      ⟨f, c₂, hfault, hsame, hspent₂⟩ | ⟨c₂, hdone, hfile, hspent₂⟩
    · have htable : (database.rollback c₂).file.table = some t := by
        show c₂.file.table = some t
        rw [hsame, ht₁]
      rw [hfault]
      exact .lost htable (Nat.lt_of_lt_of_le hspent₂ hspent)
    · rw [hdone]
      exact .written (hfile ▸ hw₁) (Nat.le_trans hspent₂ hspent)

theorem flushWith_outcome (es : List Event) (tries : Nat) (ht : c.file.table = some t) :
    Outcome c t es (database.flushWith es tries c) := by
  have hbegin (c : Connection) : database.begin c = c.attempt LogFile.database.begin := rfl
  induction tries generalizing c with
  | zero =>
    rw [Database.flushWith, hbegin]
    rcases attempt_cases LogFile.database.begin c with
      ⟨f, c₁, hfault, hsame, hspent⟩ | ⟨c₁, hdone, hfile, hspent⟩
    · rw [hfault]
      cases f <;> exact .lost (hsame ▸ ht) hspent
    · rw [hdone]
      exact (writeAll_outcome es (hfile ▸ ht) (hfile ▸ ht)).mono hspent
  | succ tries ih =>
    rw [Database.flushWith, hbegin]
    rcases attempt_cases LogFile.database.begin c with
      ⟨f, c₁, hfault, hsame, hspent⟩ | ⟨c₁, hdone, hfile, hspent⟩
    · rw [hfault]
      cases f with
      | locked => exact (ih (hsame ▸ ht)).mono (Nat.le_of_lt hspent)
      | failed => exact .lost (hsame ▸ ht) hspent
    · rw [hdone]
      exact (writeAll_outcome es (hfile ▸ ht) (hfile ▸ ht)).mono hspent

/-- **A batch is written whole or not at all**, and not at all only if
something goes wrong. -/
theorem flush_outcome (es : List Event) (ht : c.file.table = some t) :
    Outcome c t es (database.flush es c) := by
  rw [Database.flush]
  split
  next h =>
    rw [List.isEmpty_iff.mp h]
    exact .written ht (Nat.le_refl _)
  next => exact flushWith_outcome es retries ht

/-! ### Undisturbed -/

theorem insertAll_undisturbed (es : List Event) (f : LogFile) : database.insertAll es { file := f } =
    ((LogFile.database.insertAll es f).1, { file := (LogFile.database.insertAll es f).2 }) := by
  induction es generalizing f with
  | nil => rfl
  | cons e es ih =>
    have hinsert : database.insert e { file := f } =
        ((LogFile.database.insert e f).1, { file := (LogFile.database.insert e f).2 }) := rfl
    rw [Database.insertAll, Database.insertAll, hinsert]
    rcases LogFile.database.insert e f with ⟨_ | id, g⟩
    · rfl
    · dsimp only
      rw [ih]
      rcases LogFile.database.insertAll es g with ⟨_ | cs, g'⟩ <;> rfl

/-- **With nothing to go wrong, a connection is the file.** -/
theorem flush_undisturbed (es : List Event) (f : LogFile) : database.flush es { file := f } =
    ((LogFile.database.flush es f).1, { file := (LogFile.database.flush es f).2 }) := by
  have hbegin : database.begin { file := f } =
      ((LogFile.database.begin f).1, { file := (LogFile.database.begin f).2 }) := rfl
  have hdone : LogFile.database.begin f = (.ok (), { f with working := f.table }) := rfl
  rw [Database.flush, Database.flush]
  split
  next => rfl
  next =>
    rw [retries, Database.flushWith, Database.flushWith, hbegin, hdone]
    dsimp only
    rw [Database.writeAll, Database.writeAll, insertAll_undisturbed]
    rcases LogFile.database.insertAll es { f with working := f.table } with ⟨_ | cs, g⟩ <;> rfl

end Connection

end Log

end Interpose
