/-
Interpose.Proofs.Session.Table — what the table of sessions holds after each change.

Every operation is about one process, so each has a lemma that says what
the table holds for ANY process afterwards: something new for the one, and
what it held before for all others. The table is looked up by process id
and kept in the order of the ids; the lookups do not depend on that order,
but that no process has two sessions does (`Single`).
-/
import Interpose.Daemon.Service

namespace Interpose

variable {t t' : SessionTable} {s : Session} {pid other : UInt32}

@[simp] theorem Session.heardAt_pid (s : Session) (now : ClockReading) :
    (s.heardAt now).pid = s.pid := rfl

@[simp] theorem Session.fail_pid (s : Session) (moduleId : String) :
    (s.fail moduleId).pid = s.pid := by
  rw [fail]
  split <;> rfl

@[simp] theorem Session.fail_token (s : Session) (moduleId : String) :
    (s.fail moduleId).token = s.token := by
  rw [fail]
  split <;> rfl

@[simp] theorem Session.fail_seen (s : Session) (moduleId : String) :
    (s.fail moduleId).seen = s.seen := by
  rw [fail]
  split <;> rfl

theorem Session.isOverdue_iff {now ttl : Nat} : s.isOverdue now ttl = true ↔ s.seen + ttl < now := by
  rw [isOverdue, decide_eq_true_iff]
  omega

/-- The session is that of a process which registered like this. What was
reported of it since, and when it was heard of, is another matter. -/
structure Session.Records (s : Session) (r : Registration) : Prop where
  pid : s.pid = r.pid
  app : some s.app = r.app
  moduleIds : s.moduleIds = r.moduleIds
  registryVersion : s.registryVersion = r.registryVersion

namespace Session.Records

variable {r : Registration}

theorem heardAt (h : s.Records r) (now : ClockReading) : (s.heardAt now).Records r :=
  ⟨h.pid, h.app, h.moduleIds, h.registryVersion⟩

theorem fail (h : s.Records r) (moduleId : String) : (s.fail moduleId).Records r := by
  rw [Session.fail]
  split
  · exact h
  · exact ⟨h.pid, h.app, h.moduleIds, h.registryVersion⟩

end Session.Records

namespace SessionTable

/-! ## Lookups -/

theorem pid_of_get? (h : t.get? pid = some s) : s.pid = pid := by
  simpa using List.find?_some h

/-- Looking up a process among those that are kept for their ids. -/
theorem find?_filter_pid (l : List Session) (keep : UInt32 → Bool) (pid : UInt32) :
    (l.filter fun s => keep s.pid).find? (·.pid == pid)
      = if keep pid then l.find? (·.pid == pid) else none := by
  rw [List.find?_filter]
  split
  case isTrue hkeep =>
    congr 1
    funext s
    by_cases hs : s.pid = pid <;> simp [hs, hkeep]
  case isFalse hkeep =>
    rw [List.find?_eq_none]
    intro s _
    by_cases hs : s.pid = pid <;> simp [hs, hkeep]

theorem get?_put (t : SessionTable) (s : Session) (pid : UInt32) :
    (t.put s).get? pid = if pid = s.pid then some s else t.get? pid := by
  have hbelow := find?_filter_pid t.sessions (fun k => k < s.pid) pid
  have habove := find?_filter_pid t.sessions (fun k => s.pid < k) pid
  rw [get?, put, List.find?_append, List.find?_append, hbelow, habove, List.find?_singleton, get?]
  by_cases hpid : pid = s.pid
  · simp [hpid]
  · have hne : (s.pid == pid) = false := beq_false_of_ne (Ne.symm hpid)
    rw [if_neg hpid, hne]
    rcases UInt32.lt_or_lt_of_ne hpid with hlt | hgt
    · simp [hlt, UInt32.lt_asymm hlt]
    · simp [hgt, UInt32.lt_asymm hgt]

/-- Adjusting one process leaves everybody's id alone. -/
theorem pid_adjusted {f : Session → Session} (hf : ∀ s, (f s).pid = s.pid) (pid : UInt32)
    (s : Session) : (if s.pid == pid then f s else s).pid = s.pid := by
  split
  · exact hf s
  · rfl

theorem get?_adjust (t : SessionTable) (pid : UInt32) {f : Session → Session}
    (hf : ∀ s, (f s).pid = s.pid) (other : UInt32) :
    (t.adjust pid f).get? other = if other = pid then (t.get? pid).map f else t.get? other := by
  rw [get?, adjust, List.find?_map]
  have hsame : ((fun s : Session => s.pid == other) ∘ fun s => if s.pid == pid then f s else s)
      = fun s => s.pid == other := by
    funext s
    exact congrArg (· == other) (pid_adjusted hf pid s)
  rw [hsame]
  show (t.get? other).map _ = _
  cases hget : t.get? other with
  | none =>
    split
    case isTrue heq =>
      subst heq
      rw [hget]
      rfl
    case isFalse => rfl
  | some s =>
    have hs := pid_of_get? hget
    split
    case isTrue heq =>
      subst heq
      simp [hget, hs]
    case isFalse hne => simp [hs, hne]

/-- Without a process, the table holds nothing for it and the same for all others. -/
theorem get?_without (t : SessionTable) (pid other : UInt32) :
    get? { t with sessions := t.sessions.filter (·.pid != pid) } other
      = if other = pid then none else t.get? other := by
  have hfilter := find?_filter_pid t.sessions (fun k => k != pid) other
  rw [get?, hfilter, get?]
  by_cases hother : other = pid <;> simp [hother]

/-! ## Registering, beating, failing, dropping -/

theorem get?_register (t : SessionTable) (token : String) (now : ClockReading)
    (app : AppDescriptor) (r : Registration) (pid : UInt32) :
    ∃ s : Session, s.token = token ∧ s.failedModuleIds = r.failedModuleIds ∧
      (r.app = some app → s.Records r) ∧
      (t.register token now app r).get? pid = if pid = r.pid then some s else t.get? pid :=
  ⟨_, rfl, rfl, fun happ => ⟨rfl, happ.symm, rfl, rfl⟩, get?_put ..⟩

theorem get?_recordFailure (t : SessionTable) (pid : UInt32) (moduleId : String)
    (other : UInt32) : (t.recordFailure pid moduleId).get? other
      = if other = pid then (t.get? pid).map (·.fail moduleId) else t.get? other :=
  get?_adjust t pid (fun s => s.fail_pid moduleId) other

theorem get?_heartbeat (t : SessionTable) (now : ClockReading) (pid : UInt32) (token : String)
    (other : UInt32) : (t.heartbeat now pid token).2.get? other
      = if other = pid ∧ t.knows pid token then (t.get? pid).map (·.heardAt now)
        else t.get? other := by
  rw [heartbeat]
  split
  case isTrue hknows =>
    rw [get?_adjust t pid (fun s => s.heardAt_pid now) other]
    simp [hknows]
  case isFalse hknows => simp [hknows]

/-- A process that is overdue is removed, and it alone. -/
theorem dropOverdue_some {now ttl : Nat} (h : t.dropOverdue now ttl pid = (some s, t')) :
    t' = { t with sessions := t.sessions.filter (·.pid != pid) } := by
  rw [dropOverdue] at h
  split at h
  · cases h
  · split at h <;> cases h
    rfl

theorem dropOverdue_none {now ttl : Nat} (h : t.dropOverdue now ttl pid = (none, t')) :
    t' = t := by
  rw [dropOverdue] at h
  split at h
  · cases h
    rfl
  · split at h <;> cases h
    rfl

/-- Whether a process is dropped depends on its session alone. -/
theorem dropOverdue_cases (t : SessionTable) (now ttl : Nat) (pid : UInt32) :
    (∃ s, t.get? pid = some s ∧ s.isOverdue now ttl = true ∧ t.dropOverdue now ttl pid
        = (some s, { t with sessions := t.sessions.filter (·.pid != pid) })) ∨
      ((∀ s, t.get? pid = some s → s.isOverdue now ttl = false) ∧
        t.dropOverdue now ttl pid = (none, t)) := by
  cases hget : t.get? pid with
  | none => exact .inr ⟨fun _ h => (nomatch h), by simp [dropOverdue, hget]⟩
  | some s =>
    cases hs : s.isOverdue now ttl with
    | true => exact .inl ⟨s, rfl, hs, by simp [dropOverdue, hget, hs]⟩
    | false => exact .inr ⟨fun _ h => Option.some.inj h ▸ hs, by simp [dropOverdue, hget, hs]⟩

/-! ## One session for each process -/

/-- No process has two sessions, and they are in the order of the process ids. -/
def Single (t : SessionTable) : Prop := t.sessions.Pairwise fun a b => a.pid < b.pid

theorem Single.get?_of_mem (h : t.Single) (hs : s ∈ t.sessions) : t.get? s.pid = some s := by
  obtain ⟨before, after, hsplit⟩ := List.append_of_mem hs
  rw [Single, hsplit, List.pairwise_append] at h
  refine List.find?_eq_some_iff_append.mpr ⟨beq_self_eq_true _, before, after, hsplit, ?_⟩
  intro a ha
  exact bne_iff_ne.mpr (UInt32.ne_of_lt (h.2.2 a ha s List.mem_cons_self))

theorem Single.filter_pid (h : t.Single) (hget : t.get? pid = some s) :
    t.sessions.filter (·.pid == pid) = [s] := by
  obtain ⟨hs, before, after, hsplit, hbefore⟩ := List.find?_eq_some_iff_append.mp hget
  rw [Single, hsplit, List.pairwise_append, List.pairwise_cons] at h
  have hnone : before.filter (·.pid == pid) = [] :=
    List.filter_eq_nil_iff.mpr fun a ha => by simpa using hbefore a ha
  have hrest : after.filter (·.pid == pid) = [] := List.filter_eq_nil_iff.mpr fun b hb heq =>
    UInt32.ne_of_lt (h.2.1.1 b hb) ((eq_of_beq hs).trans (eq_of_beq heq).symm)
  simp only [hsplit, List.filter_append, List.filter_cons, hs, hnone, hrest, if_true,
    List.nil_append]

theorem Single.mem_overdue {now ttl : Nat} (h : t.Single) :
    pid ∈ t.overdue now ttl ↔ ∃ s, t.get? pid = some s ∧ s.isOverdue now ttl = true := by
  rw [overdue, List.mem_map]
  refine exists_congr fun s => ?_
  rw [List.mem_filter]
  constructor
  · rintro ⟨⟨hs, hlate⟩, rfl⟩
    exact ⟨h.get?_of_mem hs, hlate⟩
  · rintro ⟨hget, hlate⟩
    exact ⟨⟨List.mem_of_find?_eq_some hget, hlate⟩, pid_of_get? hget⟩

theorem Single.nodup_overdue (h : t.Single) (now ttl : Nat) : (t.overdue now ttl).Nodup :=
  List.pairwise_map.mpr ((h.filter _).imp UInt32.ne_of_lt)

theorem Single.put (h : t.Single) (s : Session) : (t.put s).Single := by
  have hbelow : ∀ a ∈ t.sessions.filter (·.pid < s.pid), a.pid < s.pid := fun a ha => by
    simpa using (List.mem_filter.mp ha).2
  have habove : ∀ b ∈ t.sessions.filter (fun old => s.pid < old.pid), s.pid < b.pid :=
    fun b hb => by simpa using (List.mem_filter.mp hb).2
  refine List.pairwise_append.mpr ⟨List.pairwise_append.mpr ⟨h.filter _, ?_, ?_⟩, h.filter _, ?_⟩
  · exact List.pairwise_singleton _ _
  · intro a ha b hb
    rw [List.mem_singleton.mp hb]
    exact hbelow a ha
  · intro a ha b hb
    rcases List.mem_append.mp ha with ha | ha
    · exact UInt32.lt_trans (hbelow a ha) (habove b hb)
    · rw [List.mem_singleton.mp ha]
      exact habove b hb

theorem Single.adjust (h : t.Single) (pid : UInt32) {f : Session → Session}
    (hf : ∀ s, (f s).pid = s.pid) : (t.adjust pid f).Single := by
  refine List.pairwise_map.mpr (h.imp fun hlt => ?_)
  rw [pid_adjusted hf, pid_adjusted hf]
  exact hlt

theorem Single.heartbeat (h : t.Single) (now : ClockReading) (pid : UInt32) (token : String) :
    (t.heartbeat now pid token).2.Single := by
  rw [SessionTable.heartbeat]
  split
  · exact h.adjust pid fun s => s.heardAt_pid now
  · exact h

theorem Single.without (h : t.Single) (pid : UInt32) :
    Single { t with sessions := t.sessions.filter (·.pid != pid) } := h.filter _

end SessionTable

/-! ## What the daemon's calls do to the table -/

namespace Daemon

variable {d d' : Daemon} {r : Registration}

theorem registerSession_ok {answer : RegistrationAnswer}
    (h : d.registerSession r = (.ok answer, d')) :
    ∃ app, r.app = some app ∧
      d'.sessions = d.sessions.register answer.livenessToken d.clock app r := by
  rw [registerSession] at h
  cases happ : neededApp r.app with
  | error e =>
    rw [happ] at h
    cases h
  | ok app =>
    rw [happ] at h
    cases h
    refine ⟨app, ?_, rfl⟩
    cases hr : r.app with
    | none =>
      rw [hr] at happ
      cases happ
    | some given =>
      rw [hr, neededApp] at happ
      split at happ
      · cases happ
      · exact congrArg some (Except.ok.inj happ)

/-- Whoever names its application is registered, under the next token. -/
theorem registerSession_named {app : AppDescriptor} (d : Daemon)
    (happ : neededApp r.app = .ok app) :
    ∃ d', d.registerSession r
        = (.ok { livenessToken := d.tokens.next.1, registryVersion := d.version }, d') ∧
      d'.tokens = d.tokens.next.2 := by
  rw [registerSession, happ]
  exact ⟨_, rfl, rfl⟩

theorem registerSession_error {e : CallFault} (h : d.registerSession r = (.error e, d')) :
    neededApp r.app = .error e ∧ d' = d := by
  rw [registerSession] at h
  cases happ : neededApp r.app with
  | error e' =>
    rw [happ] at h
    cases h
    exact ⟨rfl, rfl⟩
  | ok app =>
    rw [happ] at h
    cases h

theorem heartbeat_known (d : Daemon) (h : Heartbeat) :
    (d.heartbeat h).1.known = d.sessions.knows h.pid h.livenessToken := by
  show (d.sessions.heartbeat d.clock h.pid h.livenessToken).1 = _
  rw [SessionTable.heartbeat]
  cases d.sessions.knows h.pid h.livenessToken <;> rfl

theorem reportFailure_sessions (d : Daemon) (f : FailureReport) :
    (d.reportFailure f).2.sessions = d.sessions ∨
      (d.reportFailure f).2.sessions = d.sessions.recordFailure f.pid f.moduleId := by
  rw [reportFailure]
  cases f.diagnostic with
  | none => exact .inl rfl
  | some diagnostic => exact .inr rfl

/-- A daemon that has just been started knows nobody. -/
theorem boot_sessions (s : Settings) (m : Machine) :
    (boot s m).sessions = { ttl := s.heartbeatTtl } := by
  simp only [boot]
  cases (Registry.Live.start _ m.disk).1.warning <;> rfl

theorem boot_tokens (s : Settings) (m : Machine) : (boot s m).tokens = m.tokens := by
  simp only [boot]
  cases (Registry.Live.start _ m.disk).1.warning <;> rfl

end Daemon

end Interpose
