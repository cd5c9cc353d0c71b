/-
Interpose.Proofs.Session.Reaping — dropping what is overdue while processes are being heard of.

`SessionTable.reap` looks through the table, and then looks again at each
process it found. Nobody holds the table in between: processes register,
beat and report between any two of these looks, and one that was found
overdue may have been heard of when it is looked at again. Here each look
is a move, and so is all that can come between, and what is said of a reap
is said of every list of moves.

The processes found are looked at again in any order, for the table is
looked through in any order. `run_alone` says that with nothing in between,
and in the order of the ids, the moves do what `SessionTable.dropEach` does.

Main statement: `reaped_run`.
-/
import Interpose.Proofs.Session.Table

namespace Interpose.Reaping

/-! ## Moves -/

/-- A table out of which the overdue sessions are being dropped. -/
structure Sweep where
  table : SessionTable
  clock : ClockReading
  /-- The processes that were found overdue and have not been looked at again,
  once the table has been looked through. -/
  todo : Option (List UInt32) := none
  /-- The sessions that were dropped, to be answered in the end. -/
  gone : List Session := []

inductive Move where
  | wait (nanos : Nat)
  | register (token : String) (app : AppDescriptor) (r : Registration)
  | heartbeat (pid : UInt32) (token : String)
  | report (pid : UInt32) (moduleId : String)
  /-- The table is looked through. -/
  | scan
  /-- A process that was found is looked at again. -/
  | remove (pid : UInt32)

/-- Whether the move belongs to the reap. -/
def Move.reaps : Move → Bool
  | scan | remove _ => true
  | _ => false

/-- The moves of all others. -/
def others (ms : List Move) : List Move := ms.filter fun m => !m.reaps

namespace Sweep

/-- The processes to be looked at again; none before any was found. -/
def left (x : Sweep) : List UInt32 := x.todo.getD []

def Awaits (x : Sweep) (pid : UInt32) : Prop := pid ∈ x.left

instance (x : Sweep) (pid : UInt32) : Decidable (x.Awaits pid) :=
  inferInstanceAs (Decidable (pid ∈ _))

section

variable (now ttl : Nat)

/-- Looks again at a process, and drops its session if it is overdue still. -/
def recheck (x : Sweep) (pid : UInt32) : Sweep where
  table := (x.table.dropOverdue now ttl pid).2
  clock := x.clock
  todo := x.todo.map (·.erase pid)
  gone := x.gone ++ (x.table.dropOverdue now ttl pid).1.toList

/-- A table is looked through once, and a process only if it was found. -/
def move (x : Sweep) : Move → Sweep
  | .wait nanos => { x with clock := x.clock.after nanos }
  | .register token app r => { x with table := x.table.register token x.clock app r }
  | .heartbeat pid token => { x with table := (x.table.heartbeat x.clock pid token).2 }
  | .report pid moduleId => { x with table := x.table.recordFailure pid moduleId }
  | .scan => if x.todo = none then { x with todo := some (x.table.overdue now ttl) } else x
  | .remove pid => if x.Awaits pid then x.recheck now ttl pid else x

def run (x : Sweep) (ms : List Move) : Sweep := ms.foldl (move now ttl) x

/-- The sessions whose process has none after a move. -/
def lost (x : Sweep) (m : Move) : List Session :=
  x.table.sessions.filter fun s => ((x.move now ttl m).table.get? s.pid).isNone

/-- The sessions lost by one move after another. -/
def losses (x : Sweep) : List Move → List Session
  | [] => []
  | m :: ms => x.lost now ttl m ++ (x.move now ttl m).losses ms

end

/-- By this move a process is heard of: it beats and is told that it is known,
or it registers. -/
inductive Refreshes (x : Sweep) : UInt32 → Move → Prop
  | beats {pid : UInt32} {token : String} (known : (x.table.heartbeat x.clock pid token).1 = true) :
    Refreshes x pid (.heartbeat pid token)
  | registers (token : String) (app : AppDescriptor) (r : Registration) :
    Refreshes x r.pid (.register token app r)

variable {now ttl : Nat} {x y : Sweep} {m : Move} {ms : List Move} {pid : UInt32} {s : Session}

@[simp] theorem run_nil : x.run now ttl [] = x := rfl

@[simp] theorem run_cons : x.run now ttl (m :: ms) = (x.move now ttl m).run now ttl ms := rfl

theorem run_append (ms' : List Move) :
    x.run now ttl (ms ++ ms') = (x.run now ttl ms).run now ttl ms' := List.foldl_append

/-! ## A reap that is left alone -/

theorem run_removes (pids : List UInt32) (hx : x.todo = some pids) :
    x.run now ttl (pids.map .remove) = {
      table := (SessionTable.dropEach now ttl pids x.table).2
      clock := x.clock
      todo := some []
      gone := x.gone ++ (SessionTable.dropEach now ttl pids x.table).1 } := by
  induction pids generalizing x with
  | nil =>
    simp only [List.map_nil, run_nil, SessionTable.dropEach, List.append_nil]
    rw [← hx]
  | cons pid pids ih =>
    have hawaits : x.Awaits pid := by simp [Awaits, left, hx]
    have htodo : (x.recheck now ttl pid).todo = some pids := by simp [recheck, hx]
    rw [List.map_cons, run_cons, move, if_pos hawaits, ih htodo]
    simp [recheck, SessionTable.dropEach, List.append_assoc]

/-- **With nothing in between, the moves do what `SessionTable.dropEach` does.** -/
theorem run_alone (now ttl : Nat) (t : SessionTable) (clock : ClockReading) :
    run now ttl { table := t, clock } (.scan :: (t.overdue now ttl).map .remove) = {
      table := (SessionTable.dropEach now ttl (t.overdue now ttl) t).2
      clock
      todo := some []
      gone := (SessionTable.dropEach now ttl (t.overdue now ttl) t).1 } :=
  run_removes _ rfl

/-! ## What a move comes to for a process -/

theorem Refreshes.session (h : x.Refreshes pid m) (now ttl : Nat) :
    ∃ s, (x.move now ttl m).table.get? pid = some s ∧ s.seen = x.clock.nanos := by
  cases h with
  | @beats _ token known =>
    rw [SessionTable.heartbeat] at known
    split at known
    case isTrue hknows =>
      obtain ⟨s, hs, -⟩ := Option.any_eq_true _ _ |>.mp hknows
      refine ⟨s.heardAt x.clock, ?_, rfl⟩
      rw [move, SessionTable.get?_heartbeat, if_pos ⟨rfl, hknows⟩, hs, Option.map_some]
    case isFalse => cases known
  | registers token app r => exact ⟨_, (SessionTable.get?_put ..).trans (if_pos rfl), rfl⟩

/-- A process is heard of, or a failure of it is noted, or it is dropped, or
nothing changes for it. -/
inductive Turn (now ttl : Nat) (x : Sweep) (pid : UInt32) (m : Move) : Prop
  | refreshed {s : Session} (refreshes : x.Refreshes pid m)
      (session : (x.move now ttl m).table.get? pid = some s) (seen : s.seen = x.clock.nanos)
  | noted {moduleId : String} (reports : m = .report pid moduleId)
      (session : (x.move now ttl m).table.get? pid = (x.table.get? pid).map (·.fail moduleId))
  | dropped {s : Session} (removes : m = .remove pid) (session : x.table.get? pid = some s)
      (overdue : s.isOverdue now ttl = true)
      (none : (x.move now ttl m).table.get? pid = none)
  | untouched (session : (x.move now ttl m).table.get? pid = x.table.get? pid)

theorem Awaits.todo_ne_none (h : x.Awaits pid) : x.todo ≠ none := by
  intro htodo
  rw [Awaits, left, htodo] at h
  cases h

/-- A process that is looked at again is dropped if it awaits that and is overdue. -/
theorem remove_cases (now ttl : Nat) (x : Sweep) (pid : UInt32) :
    (∃ s, x.Awaits pid ∧ x.table.get? pid = some s ∧ s.isOverdue now ttl = true ∧
        x.move now ttl (.remove pid) = {
          table := { x.table with sessions := x.table.sessions.filter (·.pid != pid) }
          clock := x.clock
          todo := x.todo.map (·.erase pid)
          gone := x.gone ++ [s] }) ∨
      ((x.Awaits pid → ∀ s, x.table.get? pid = some s → s.isOverdue now ttl = false) ∧
        x.move now ttl (.remove pid) = { x with todo := x.todo.map (·.erase pid) }) := by
  rw [move]
  split
  case isTrue hawaits =>
    rw [recheck]
    rcases x.table.dropOverdue_cases now ttl pid with ⟨s, hget, hlate, hdrop⟩ | ⟨hnot, hdrop⟩
    · exact .inl ⟨s, hawaits, hget, hlate, by rw [hdrop, Option.toList]⟩
    · exact .inr ⟨fun _ => hnot, by rw [hdrop, Option.toList, List.append_nil]⟩
  case isFalse hnot =>
    refine .inr ⟨fun h => absurd h hnot, ?_⟩
    have htodo : x.todo.map (·.erase pid) = x.todo := by
      cases htodo : x.todo with
      | none => rfl
      | some pids =>
        rw [Awaits, left, htodo] at hnot
        exact congrArg some (List.erase_of_not_mem hnot)
    rw [htodo]

theorem left_remove (now ttl : Nat) (x : Sweep) (pid : UInt32) :
    (x.move now ttl (.remove pid)).left = x.left.erase pid := by
  have hleft : (x.todo.map (·.erase pid)).getD [] = x.left.erase pid := by
    rw [left]
    cases x.todo <;> rfl
  rcases remove_cases now ttl x pid with ⟨s, -, -, -, hmove⟩ | ⟨-, hmove⟩ <;> rw [hmove] <;>
    exact hleft

/-- **These are all the turns there are.** -/
theorem turn_move (now ttl : Nat) (x : Sweep) (pid : UInt32) (m : Move) :
    Turn now ttl x pid m := by
  cases m with
  | wait nanos => exact .untouched rfl
  | register token app r =>
    by_cases hpid : pid = r.pid
    · subst hpid
      obtain ⟨s, hs, hseen⟩ := (Refreshes.registers token app r).session now ttl
      exact .refreshed (.registers token app r) hs hseen
    · exact .untouched ((SessionTable.get?_put ..).trans (if_neg hpid))
  | heartbeat p token =>
    by_cases hbeats : pid = p ∧ x.table.knows p token = true
    · obtain ⟨rfl, hknows⟩ := hbeats
      have hrefreshes : x.Refreshes pid (.heartbeat pid token) :=
        .beats (by rw [SessionTable.heartbeat, if_pos hknows])
      obtain ⟨s, hs, hseen⟩ := hrefreshes.session now ttl
      exact .refreshed hrefreshes hs hseen
    · exact .untouched ((SessionTable.get?_heartbeat ..).trans (if_neg hbeats))
  | report p moduleId =>
    have hget := SessionTable.get?_recordFailure x.table p moduleId pid
    by_cases hpid : pid = p
    · subst hpid
      exact .noted rfl (hget.trans (if_pos rfl))
    · exact .untouched (hget.trans (if_neg hpid))
  | scan =>
    refine .untouched ?_
    rw [move]
    split <;> rfl
  | remove p =>
    rcases remove_cases now ttl x p with ⟨s, -, hget, hlate, hmove⟩ | ⟨-, hmove⟩
    · have hafter := SessionTable.get?_without x.table p pid
      by_cases hpid : pid = p
      · subst hpid
        exact .dropped rfl hget hlate (by rw [hmove, hafter, if_pos rfl])
      · exact .untouched (by rw [hmove, hafter, if_neg hpid])
    · exact .untouched (by rw [hmove])

/-! ## What is lost -/

/-- What holds between any two moves. -/
structure Sound (x : Sweep) : Prop where
  single : x.table.Single
  start : x.todo = none → x.gone = []
  /-- A process that was dropped is not looked at again. -/
  apart : (x.gone.map (·.pid) ++ x.left).Nodup

/-- Who is dropped goes from those to be looked at to those that are gone. -/
theorem Sound.apart_remove (hx : x.Sound) (pid : UInt32) :
    ((x.move now ttl (.remove pid)).gone.map (·.pid)
      ++ (x.move now ttl (.remove pid)).left).Nodup := by
  rw [left_remove]
  rcases remove_cases now ttl x pid with ⟨s, hawaits, hget, -, hmove⟩ | ⟨-, hmove⟩
  · rw [hmove, List.map_append, List.append_assoc, List.map_singleton, List.singleton_append,
      SessionTable.pid_of_get? hget]
    exact ((List.perm_cons_erase hawaits).append_left _).nodup_iff.mp hx.apart
  · rw [hmove]
    exact hx.apart.sublist (List.erase_sublist.append_left _)

theorem Sound.move (hx : x.Sound) (m : Move) : (x.move now ttl m).Sound := by
  obtain ⟨hsingle, hstart, hapart⟩ := id hx
  cases m with
  | wait nanos => exact ⟨hsingle, hstart, hapart⟩
  | register token app r => exact ⟨hsingle.put _, hstart, hapart⟩
  | heartbeat pid token => exact ⟨hsingle.heartbeat x.clock pid token, hstart, hapart⟩
  | report pid moduleId =>
    exact ⟨hsingle.adjust pid fun s => s.fail_pid moduleId, hstart, hapart⟩
  | scan =>
    rw [Sweep.move]
    split
    case isTrue htodo =>
      refine ⟨hsingle, nofun, ?_⟩
      rw [hstart htodo]
      exact hsingle.nodup_overdue now ttl
    case isFalse => exact hx
  | remove pid =>
    refine ⟨?_, fun htodo => ?_, hx.apart_remove pid⟩
    · rcases remove_cases now ttl x pid with ⟨s, -, -, -, hmove⟩ | ⟨-, hmove⟩
      · exact hmove ▸ hsingle.without pid
      · exact hmove ▸ hsingle
    · rcases remove_cases now ttl x pid with ⟨s, hawaits, -, -, hmove⟩ | ⟨-, hmove⟩
      · rw [hmove, Option.map_eq_none_iff] at htodo
        exact absurd htodo hawaits.todo_ne_none
      · rw [hmove, Option.map_eq_none_iff] at htodo
        rw [hmove]
        exact hstart htodo

theorem Sound.run (hx : x.Sound) (ms : List Move) : (x.run now ttl ms).Sound := by
  induction ms generalizing x with
  | nil => exact hx
  | cons m ms ih => exact ih (hx.move m)

/-- **A session is lost by looking at its process again, and for the time it was
last seen at.** -/
theorem Sound.of_mem_lost (hx : x.Sound) (hs : s ∈ x.lost now ttl m) :
    m = .remove s.pid ∧ s.seen + ttl < now := by
  rw [lost, List.mem_filter, Option.isNone_iff_eq_none] at hs
  obtain ⟨hmem, hnone⟩ := hs
  have hget := hx.single.get?_of_mem hmem
  cases turn_move now ttl x s.pid m with
  | refreshed _ session _ => cases hnone.symm.trans session
  | noted _ session =>
    rw [hget] at session
    cases hnone.symm.trans session
  | dropped removes session overdue _ =>
    cases hget.symm.trans session
    exact ⟨removes, Session.isOverdue_iff.mp overdue⟩
  | untouched session => cases hnone.symm.trans (session.trans hget)

theorem Sound.lost_of_table (hx : x.Sound) (h : (x.move now ttl m).table = x.table) :
    x.lost now ttl m = [] := by
  rw [lost, h]
  exact List.filter_eq_nil_iff.mpr fun s hs => by simp [hx.single.get?_of_mem hs]

theorem Sound.lost_of_ne (hx : x.Sound) (h : ∀ pid, m ≠ .remove pid) : x.lost now ttl m = [] :=
  List.eq_nil_iff_forall_not_mem.mpr fun _ hs => h _ (hx.of_mem_lost hs).1

/-- **What a move loses is what it adds to the answer.** -/
theorem Sound.move_gone (hx : x.Sound) (m : Move) :
    (x.move now ttl m).gone = x.gone ++ x.lost now ttl m := by
  cases m with
  | remove pid =>
    rcases remove_cases now ttl x pid with ⟨s, -, hget, -, hmove⟩ | ⟨-, hmove⟩
    · have hlost : x.lost now ttl (.remove pid) = [s] := by
        rw [← hx.single.filter_pid hget, lost, hmove]
        refine List.filter_congr fun a ha => ?_
        rw [SessionTable.get?_without, hx.single.get?_of_mem ha]
        by_cases hpid : a.pid = pid <;> simp [hpid]
      rw [hlost, hmove]
    · rw [hx.lost_of_table (by rw [hmove]), hmove, List.append_nil]
  | scan =>
    rw [hx.lost_of_ne (by simp), Sweep.move, List.append_nil]
    split <;> rfl
  | _ =>
    rw [hx.lost_of_ne (by simp), List.append_nil]
    rfl

theorem Sound.run_gone (hx : x.Sound) (ms : List Move) :
    (x.run now ttl ms).gone = x.gone ++ x.losses now ttl ms := by
  induction ms generalizing x with
  | nil => exact (List.append_nil _).symm
  | cons m ms ih => rw [run_cons, ih (hx.move m), hx.move_gone, losses, List.append_assoc]

/-! ## Processes that are not overdue -/

/-- A process is not overdue, if it has a session. -/
def Heard (now ttl : Nat) (pid : UInt32) (x : Sweep) : Prop :=
  ∀ s, x.table.get? pid = some s → now ≤ s.seen + ttl

/-- Two sweeps are alike for a process. -/
structure Alike (pid : UInt32) (x y : Sweep) : Prop where
  clock : x.clock = y.clock
  session : x.table.get? pid = y.table.get? pid

/-- What others do to a session depends on nothing but the session and the clock. -/
theorem Alike.move (h : Alike pid x y) (hm : m.reaps = false) :
    Alike pid (x.move now ttl m) (y.move now ttl m) := by
  obtain ⟨hclock, hsession⟩ := h
  cases m with
  | wait nanos => exact ⟨congrArg (·.after nanos) hclock, hsession⟩
  | register token app r =>
    refine ⟨hclock, ?_⟩
    simp only [Sweep.move, SessionTable.register, SessionTable.get?_put, hclock, hsession]
  | heartbeat p token =>
    refine ⟨hclock, ?_⟩
    simp only [Sweep.move, SessionTable.get?_heartbeat]
    by_cases hp : pid = p
    · subst hp
      have hknows : x.table.knows pid token = y.table.knows pid token :=
        congrArg (Option.any fun s : Session => s.token == token) hsession
      rw [hclock, hsession, hknows]
    · simp [hp, hsession]
  | report p moduleId =>
    refine ⟨hclock, ?_⟩
    simp only [Sweep.move, SessionTable.get?_recordFailure]
    by_cases hp : pid = p
    · subst hp
      rw [hsession]
    · simp [hp, hsession]
  | scan => cases hm
  | remove p => cases hm

/-- The reap makes no difference to a process that is not overdue. -/
theorem alike_move_of_heard (hm : m.reaps = true) (hx : Heard now ttl pid x) :
    Alike pid (x.move now ttl m) x := by
  have hclock : (x.move now ttl m).clock = x.clock := by
    cases m <;> cases hm <;> rw [Sweep.move] <;> split <;> rfl
  refine ⟨hclock, ?_⟩
  cases turn_move now ttl x pid m with
  | refreshed refreshes _ _ => cases refreshes <;> cases hm
  | noted reports _ =>
    rw [reports] at hm
    cases hm
  | dropped _ session overdue _ =>
    exact absurd (Session.isOverdue_iff.mp overdue) (Nat.not_lt.mpr (hx _ session))
  | untouched session => exact session

/-- **A process that is not overdue while moves are made has what it would have
if nobody had looked for those that are.** -/
theorem Alike.run (h : Alike pid x y)
    (hheard : ∀ before, before <+: ms → Heard now ttl pid (x.run now ttl before)) :
    Alike pid (x.run now ttl ms) (y.run now ttl (others ms)) := by
  induction ms generalizing x y with
  | nil => exact h
  | cons m ms ih =>
    have hrest : ∀ before, before <+: ms →
        Heard now ttl pid ((x.move now ttl m).run now ttl before) := fun before hbefore =>
      hheard (m :: before) (List.prefix_cons_inj m |>.mpr hbefore)
    cases hm : m.reaps with
    | false =>
      rw [others, List.filter_cons_of_pos (by simp [hm])]
      exact ih (h.move hm) hrest
    | true =>
      rw [others, List.filter_cons_of_neg (by simp [hm])]
      have hsame := alike_move_of_heard hm (hheard [] List.nil_prefix)
      exact ih ⟨hsame.clock.trans h.clock, hsame.session.trans h.session⟩ hrest

/-- A process has a session that is not overdue, and no new one would be. -/
structure Alive (now ttl : Nat) (pid : UInt32) (x : Sweep) : Prop where
  session : ∃ s, x.table.get? pid = some s ∧ now ≤ s.seen + ttl
  clock : now ≤ x.clock.nanos + ttl

theorem Alive.heard (h : Alive now ttl pid x) : Heard now ttl pid x := by
  obtain ⟨s, hs, hseen⟩ := h.session
  exact fun s' hs' => Option.some.inj (hs.symm.trans hs') ▸ hseen

theorem clock_le_move (m : Move) : x.clock.nanos ≤ (x.move now ttl m).clock.nanos := by
  cases m with
  | wait nanos => exact Nat.le_add_right _ _
  | scan | remove _ =>
    rw [Sweep.move]
    split <;> exact Nat.le_refl _
  | _ => exact Nat.le_refl _

theorem Refreshes.alive (h : x.Refreshes pid m) (hclock : now ≤ x.clock.nanos + ttl) :
    Alive now ttl pid (x.move now ttl m) := by
  obtain ⟨s, hs, hseen⟩ := h.session now ttl
  exact ⟨⟨s, hs, hseen ▸ hclock⟩, Nat.le_trans hclock (Nat.add_le_add_right (clock_le_move m) ttl)⟩

/-- **A process that was heard of stays alive**, whatever comes. -/
theorem Alive.move (h : Alive now ttl pid x) (m : Move) : Alive now ttl pid (x.move now ttl m) := by
  refine ⟨?_, Nat.le_trans h.clock (Nat.add_le_add_right (clock_le_move m) ttl)⟩
  obtain ⟨s, hs, hseen⟩ := h.session
  cases turn_move now ttl x pid m with
  | refreshed _ session seen => exact ⟨_, session, seen ▸ h.clock⟩
  | noted _ session => exact ⟨_, session.trans (congrArg _ hs), (s.fail_seen _).symm ▸ hseen⟩
  | dropped _ session overdue _ =>
    exact absurd (Session.isOverdue_iff.mp overdue) (Nat.not_lt.mpr (h.heard _ session))
  | untouched session => exact ⟨s, session.trans hs, hseen⟩

theorem Alive.run (h : Alive now ttl pid x) (ms : List Move) :
    Alive now ttl pid (x.run now ttl ms) := by
  induction ms generalizing x with
  | nil => exact h
  | cons m ms ih => exact ih (h.move m)

/-! ## Processes that were found -/

/-- A process was dropped, or it is overdue and will be looked at again. -/
def Doomed (now ttl : Nat) (pid : UInt32) (x : Sweep) : Prop :=
  pid ∈ x.gone.map (·.pid) ∨ x.Awaits pid ∧ pid ∈ x.table.overdue now ttl

theorem gone_prefix_move (hx : x.Sound) (m : Move) : x.gone <+: (x.move now ttl m).gone :=
  hx.move_gone m ▸ List.prefix_append _ _

theorem awaits_move (h : x.Awaits pid) (hm : m ≠ .remove pid) : (x.move now ttl m).Awaits pid := by
  cases m with
  | scan =>
    rw [Sweep.move, if_neg h.todo_ne_none]
    exact h
  | remove p =>
    have hne : pid ≠ p := fun heq => hm (heq ▸ rfl)
    rw [Awaits, left_remove]
    exact (List.mem_erase_of_ne hne).mpr h
  | _ => exact h

theorem Doomed.move (h : Doomed now ttl pid x) (hx : x.Sound) (m : Move) :
    x.Refreshes pid m ∨ Doomed now ttl pid (x.move now ttl m) := by
  rcases h with hgone | ⟨hawaits, hlate⟩
  · exact .inr (.inl (((gone_prefix_move hx m).map _).mem hgone))
  obtain ⟨s, hget, hs⟩ := hx.single.mem_overdue.mp hlate
  by_cases hm : m = .remove pid
  · subst hm
    refine .inr (.inl ?_)
    rcases remove_cases now ttl x pid with ⟨s', -, hget', -, hmove⟩ | ⟨hnot, -⟩
    · simp [hmove, SessionTable.pid_of_get? hget']
    · cases hs.symm.trans (hnot hawaits s hget)
  have hafter : (x.move now ttl m).table.Single := (hx.move m).single
  cases turn_move now ttl x pid m with
  | refreshed refreshes _ _ => exact .inl refreshes
  | noted _ session =>
    refine .inr (.inr ⟨awaits_move hawaits hm, hafter.mem_overdue.mpr ?_⟩)
    exact ⟨_, session.trans (congrArg _ hget), by simpa [Session.isOverdue] using hs⟩
  | dropped removes _ _ _ => exact absurd removes hm
  | untouched session =>
    exact .inr (.inr ⟨awaits_move hawaits hm,
      hafter.mem_overdue.mpr ⟨s, session.trans hget, hs⟩⟩)

/-- **Whoever was found and is not heard of is dropped** by the time that nobody
is left to be looked at. -/
theorem Doomed.run (h : Doomed now ttl pid x) (hx : x.Sound) (ms : List Move) :
    Doomed now ttl pid (x.run now ttl ms) ∨ ∃ before m after,
      ms = before ++ m :: after ∧ (x.run now ttl before).Refreshes pid m := by
  induction ms generalizing x with
  | nil => exact .inl h
  | cons m ms ih =>
    rcases h.move hx m with hrefreshes | h
    · exact .inr ⟨[], m, ms, rfl, hrefreshes⟩
    rcases ih h (hx.move m) with hdone | ⟨before, m', after, rfl, hrefreshes⟩
    · exact .inl hdone
    · exact .inr ⟨m :: before, m', after, rfl, hrefreshes⟩

end Sweep

/-! ## A reap among all that goes on -/

open Sweep

/-- What holds of a reap after any moves, whether or not the table has been looked
through by then. -/
structure Lawful (now ttl : Nat) (x₀ : Sweep) (ms : List Move) : Prop where
  /-- What the next move loses it loses by looking at the process again, and the
  session had not been seen for longer than `ttl` by then. -/
  due : ∀ m, ∀ s ∈ (x₀.run now ttl ms).lost now ttl m,
    m = .remove s.pid ∧ s.seen + ttl < now
  /-- What is answered is what was lost, with what it held when it was. -/
  returned : (x₀.run now ttl ms).gone = x₀.losses now ttl ms
  /-- No process is dropped twice. -/
  once : ((x₀.run now ttl ms).gone.map (·.pid)).Nodup
  /-- A process that is heard of next has a session from then on, and the one it would
  have if the reap had stopped there. That `now` is not ahead of the clock by more than
  `ttl` is so whenever it was read off the clock before. -/
  refreshed : ∀ pid m, (x₀.run now ttl ms).Refreshes pid m →
    now ≤ (x₀.run now ttl ms).clock.nanos + ttl → ∀ later, ∃ s,
      (x₀.run now ttl (ms ++ m :: later)).table.get? pid = some s ∧
        (x₀.run now ttl (ms ++ m :: others later)).table.get? pid = some s
  /-- A process that was at no moment overdue has what it would have without the reap. -/
  untouched : ∀ pid, (∀ before, before <+: ms → Heard now ttl pid (x₀.run now ttl before)) →
    (x₀.run now ttl ms).table.get? pid = (x₀.run now ttl (others ms)).table.get? pid
  /-- If the table is looked through next, whoever is found has been dropped when
  nobody is left to be looked at, unless heard of in between. -/
  complete : (x₀.run now ttl ms).todo = none →
    ∀ pid ∈ (x₀.run now ttl ms).table.overdue now ttl, ∀ later,
      (x₀.run now ttl (ms ++ .scan :: later)).todo = some [] →
        pid ∈ (x₀.run now ttl (ms ++ .scan :: later)).gone.map (·.pid) ∨
          ∃ before m after, later = before ++ m :: after ∧
            (x₀.run now ttl (ms ++ .scan :: before)).Refreshes pid m

/-- **A reap drops what is overdue and nothing else, whatever goes on meanwhile.** -/
theorem reaped_run (now ttl : Nat) (t : SessionTable) (clock : ClockReading) (ms : List Move)
    (ht : t.Single) : Lawful now ttl { table := t, clock } ms := by
  have hstart : Sound { table := t, clock } := ⟨ht, fun _ => rfl, .nil⟩
  have hx : Sound (run now ttl { table := t, clock } ms) := hstart.run ms
  constructor
  case due => exact fun m s hs => hx.of_mem_lost hs
  case returned => exact hstart.run_gone ms
  case once => exact (List.nodup_append.mp hx.apart).1
  case untouched => exact fun pid hheard => (Alike.run ⟨rfl, rfl⟩ hheard).session
  case refreshed =>
    intro pid m hrefreshes hclock later
    simp only [run_append, run_cons]
    generalize run now ttl { table := t, clock } ms = x at hrefreshes hclock ⊢
    have halive := hrefreshes.alive hclock
    obtain ⟨s, hs, -⟩ := (halive.run later).session
    have halike : Alike pid ((x.move now ttl m).run now ttl later)
        ((x.move now ttl m).run now ttl (others later)) :=
      Alike.run ⟨rfl, rfl⟩ fun before _ => (halive.run before).heard
    exact ⟨s, hs, halike.session.symm.trans hs⟩
  case complete =>
    intro htodo pid hfound later hdone
    simp only [run_append, run_cons] at hdone ⊢
    generalize run now ttl { table := t, clock } ms = x at hx htodo hfound hdone ⊢
    have hscan : x.move now ttl .scan = { x with todo := some (x.table.overdue now ttl) } :=
      if_pos htodo
    have hdoomed : Doomed now ttl pid (x.move now ttl .scan) := by
      rw [hscan]
      exact .inr ⟨hfound, hfound⟩
    refine (hdoomed.run (hx.move .scan) later).imp_left fun h => h.resolve_right fun hwaits => ?_
    have hawaits := hwaits.1
    rw [Awaits, left, hdone] at hawaits
    cases hawaits

/-- Two processes are found overdue. One of them beats before it is looked at again,
and only the other is dropped; its id is registered anew right after that. -/
theorem reaped_run_beaten :
    let app : AppDescriptor := { appId := "app" }
    let x : Sweep := {
      table := { ttl := { nanos := 60 }, sessions := [
        { pid := 3, app, token := "a", seen := 5 }, { pid := 7, app, token := "b", seen := 6 },
        { pid := 9, app, token := "c", seen := 50 }] }
      clock := { nanos := 100 } }
    let ms : List Move := [.wait 1, .scan, .heartbeat 3 "a", .heartbeat 7 "a", .remove 7,
      .register "d" app { pid := 7, app := some app }, .report 9 "m", .remove 3]
    x.table.Single ∧ Lawful 100 60 x ms ∧ (x.run 100 60 ms).gone.map (·.pid) = [7] :=
  have hsingle := by
    unfold SessionTable.Single
    decide
  ⟨hsingle, reaped_run 100 60 _ _ _ hsingle, by decide⟩

end Interpose.Reaping
