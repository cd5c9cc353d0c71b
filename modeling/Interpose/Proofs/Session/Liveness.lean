/-
Interpose.Proofs.Session.Liveness — a process that beats stays known.

The daemon and a process each hold a token, and any message between them
may be lost: the daemon may have registered a process that never hears of
it, and the process may show a token nobody knows any more. What ties the
two together is said in terms of what has happened. The daemon's token of
a process is that of its last registration, unless that was dropped or
forgotten since (`standing`); the process's token is the last one it was
sent (`received`). They may differ, but not once a beat has been answered,
for the last answer of a beat says that they agree (`Phase.Owes`).

Main statements: `liveness_run`, and `beat_heals` for a beat in one go.
-/
import Interpose.Proofs.Session.Parties

namespace Interpose.Liveness

variable {r : Roster} {x y x₀ : System} {act : Act} {acts : List Act} {pid q : UInt32}
  {token : Option String} {g : Phase} {d : Daemon}

/-! ## What has happened -/

/-- What a step makes of the token a process is known by. -/
def stand (pid : UInt32) (o : Option String) : Act → Option String
  | .register p token => if p = pid then some token else o
  | .drop p => if p = pid then none else o
  | .restart => none
  | _ => o

/-- The token of the last registration of a process that the daemon took note
of, unless the session was dropped since, or the daemon started anew. -/
def standing (pid : UInt32) (acts : List Act) : Option String := acts.foldl (stand pid) none

/-- What a step makes of the token that a process was sent last. -/
def obtain? (pid : UInt32) (o : Option String) : Act → Option String
  | .receive p token => if p = pid then some token else o
  | _ => o

/-- The token of the last answer to a registration that a process received. -/
def received (pid : UInt32) (acts : List Act) : Option String := acts.foldl (obtain? pid) none

/-- Whether a step takes away the session of a process, or else begins or
decides a beat of it, which makes up for that. -/
def wipe (pid : UInt32) (b : Bool) : Act → Bool
  | .tick p | .judge p _ _ | .register p _ => if p = pid then false else b
  | .drop p => if p = pid then true else b
  | .restart => true
  | _ => b

/-- Whether the session of a process was dropped, or the daemon started anew,
since the process last began a beat and since the daemon last answered it. -/
def wiped (pid : UInt32) (acts : List Act) : Bool := acts.foldl (wipe pid) false

@[simp] theorem standing_append (pid : UInt32) (acts : List Act) (act : Act) :
    standing pid (acts ++ [act]) = stand pid (standing pid acts) act := List.foldl_append

@[simp] theorem received_append (pid : UInt32) (acts : List Act) (act : Act) :
    received pid (acts ++ [act]) = obtain? pid (received pid acts) act := List.foldl_append

@[simp] theorem wiped_append (pid : UInt32) (acts : List Act) (act : Act) :
    wiped pid (acts ++ [act]) = wipe pid (wiped pid acts) act := List.foldl_append

theorem stand_of_ne (hact : act.party? = some pid) (hq : q ≠ pid) (o : Option String) :
    stand q o act = o := by
  cases act <;> cases hact <;> first | rfl | exact if_neg (Ne.symm hq)

theorem obtain?_of_ne (hact : act.party? = some pid) (hq : q ≠ pid) (o : Option String) :
    obtain? q o act = o := by
  cases act <;> cases hact <;> first | rfl | exact if_neg (Ne.symm hq)

theorem wipe_of_ne (hact : act.party? = some pid) (hq : q ≠ pid) (b : Bool) :
    wipe q b act = b := by
  cases act <;> cases hact <;> first | rfl | exact if_neg (Ne.symm hq)

/-! ## What a step does to the sessions -/

/-- **A step of one process, or about it, leaves every other alone.** -/
theorem apart_step (h : Step r x act y) (hact : act.party? = some pid) (hq : q ≠ pid) :
    y.daemon.sessions.get? q = x.daemon.sessions.get? q ∧ y.party q = x.party q := by
  cases h with
  | judge shows judges =>
    cases hact
    refine ⟨?_, System.become_party_of_ne hq⟩
    obtain rfl : _ = _ := congrArg Prod.snd judges
    rw [System.become_daemon]
    exact (SessionTable.get?_heartbeat ..).trans (if_neg fun h => hq h.1)
  | register asks registers =>
    cases hact
    refine ⟨?_, System.become_party_of_ne hq⟩
    obtain ⟨app, -, hsessions⟩ := Daemon.registerSession_ok registers
    obtain ⟨s, -, -, -, hget⟩ := SessionTable.get?_register x.daemon.sessions _ _ app (r.of pid) q
    rw [System.become_daemon, hsessions, hget, r.own, if_neg hq]
  | refuse asks refuses =>
    cases hact
    refine ⟨?_, System.become_party_of_ne hq⟩
    rw [System.become_daemon, (Daemon.registerSession_error refuses).2]
  | report f =>
    cases hact
    refine ⟨?_, rfl⟩
    rcases x.daemon.reportFailure_sessions f with hsame | hfailed
    · rw [hsame]
    · rw [hfailed, SessionTable.get?_recordFailure, if_neg hq]
  | drop drops =>
    cases hact
    refine ⟨?_, rfl⟩
    rw [SessionTable.dropOverdue_some drops, SessionTable.get?_without, if_neg hq]
  | restart settings => cases hact
  | other sessions tokens => cases hact
  | _ =>
    cases hact
    exact ⟨rfl, System.become_party_of_ne hq⟩

/-- What a step comes to for the session of a process. -/
inductive Turn (r : Roster) (x y : System) (q : UInt32) (act : Act) : Prop
  | kept (f : Session → Session) (token : ∀ s, (f s).token = s.token)
      (records : ∀ s, s.Records (r.of q) → (f s).Records (r.of q))
      (session : y.daemon.sessions.get? q = (x.daemon.sessions.get? q).map f)
      (stands : ∀ o, stand q o act = o)
  | registered {s : Session} (records : s.Records (r.of q))
      (session : y.daemon.sessions.get? q = some s) (stands : ∀ o, stand q o act = some s.token)
  | gone (session : y.daemon.sessions.get? q = none) (stands : ∀ o, stand q o act = none)

theorem Turn.untouched (h : y.daemon.sessions.get? q = x.daemon.sessions.get? q)
    (hstands : ∀ o, stand q o act = o) : Turn r x y q act :=
  .kept id (fun _ => rfl) (fun _ => id) (by rw [h, Option.map_id, id]) hstands

/-- **These are all the turns there are.** -/
theorem turn_step (h : Step r x act y) (q : UInt32) : Turn r x y q act := by
  cases hparty : act.party? with
  | none =>
    cases h with
    | restart settings =>
      refine .gone ?_ fun _ => rfl
      rw [Daemon.boot_sessions]
      rfl
    | other sessions tokens => exact .untouched (by rw [sessions]) fun _ => rfl
    | _ => cases hparty
  | some pid =>
    by_cases hq : q = pid
    · subst hq
      cases h with
      | @judge _ token answer d shows judges =>
        cases hparty
        obtain rfl : _ = d := congrArg Prod.snd judges
        have hget :
            (x.daemon.heartbeat { pid := q, livenessToken := token }).2.sessions.get? q = _ :=
          SessionTable.get?_heartbeat x.daemon.sessions x.daemon.clock q token q
        by_cases hknows : x.daemon.sessions.knows q token
        · rw [if_pos ⟨rfl, hknows⟩] at hget
          exact .kept (·.heardAt x.daemon.clock) (fun _ => rfl) (fun s hs => hs.heardAt _) hget
            fun _ => rfl
        · rw [if_neg fun h => hknows h.2] at hget
          exact .untouched hget fun _ => rfl
      | register asks registers =>
        cases hparty
        obtain ⟨app, happ, hsessions⟩ := Daemon.registerSession_ok registers
        obtain ⟨s, htoken, -, hrecords, hget⟩ :=
          SessionTable.get?_register x.daemon.sessions _ x.daemon.clock app (r.of q) q
        refine .registered (hrecords happ) ?_ fun _ => ?_
        · rw [System.become_daemon, hsessions, hget, r.own, if_pos rfl]
        · rw [htoken]
          exact if_pos rfl
      | refuse asks refuses =>
        cases hparty
        exact .untouched (by rw [System.become_daemon, (Daemon.registerSession_error refuses).2])
          fun _ => rfl
      | report f =>
        cases hparty
        rcases x.daemon.reportFailure_sessions f with hsame | hfailed
        · exact .untouched (by rw [hsame]) fun _ => rfl
        · refine .kept (·.fail f.moduleId) (fun s => s.fail_token f.moduleId)
            (fun s hs => hs.fail _) ?_ fun _ => rfl
          rw [hfailed, SessionTable.get?_recordFailure, if_pos rfl]
      | drop drops =>
        cases hparty
        refine .gone ?_ fun _ => if_pos rfl
        rw [SessionTable.dropOverdue_some drops, SessionTable.get?_without, if_pos rfl]
      | restart settings => cases hparty
      | other sessions tokens => cases hparty
      | _ => exact .untouched rfl fun _ => rfl
    · exact .untouched (apart_step h hparty hq).1 (stand_of_ne hparty hq)

theorem single_step (h : Step r x act y) (hx : x.daemon.sessions.Single) :
    y.daemon.sessions.Single := by
  cases h with
  | @judge _ _ _ d shows judges =>
    obtain rfl : _ = d := congrArg Prod.snd judges
    exact hx.heartbeat ..
  | register asks registers =>
    obtain ⟨app, -, hsessions⟩ := Daemon.registerSession_ok registers
    rw [System.become_daemon, hsessions]
    exact hx.put _
  | refuse asks refuses =>
    rw [System.become_daemon, (Daemon.registerSession_error refuses).2]
    exact hx
  | report f =>
    rcases x.daemon.reportFailure_sessions f with hsame | hfailed
    · exact hsame ▸ hx
    · exact hfailed ▸ hx.adjust f.pid fun s => s.fail_pid f.moduleId
  | drop drops => exact SessionTable.dropOverdue_some drops ▸ hx.without _
  | restart settings =>
    show (Daemon.boot settings x.daemon.machine).sessions.Single
    rw [Daemon.boot_sessions]
    exact .nil
  | other sessions tokens => exact sessions ▸ hx
  | _ => exact hx

/-! ## What a process can rely on -/

/-- What the tokens of the two sides have to do with each other, by where the
process stands: what it shows is its own, and what it is about to be told is
true, unless its session was wiped meanwhile. -/
def Phase.Owes (token standing : Option String) (wiped : Bool) : Phase → Prop
  | showing shown => token = some shown
  | judged true => token ≠ none ∧ (wiped = false → standing = token)
  | granted fresh => wiped = false → standing = some fresh
  | _ => True

theorem Phase.Owes.wiped {standing standing' : Option String} {b : Bool}
    (h : g.Owes token standing b) : g.Owes token standing' true := by
  unfold Owes at h ⊢
  split at h
  · exact h
  · exact ⟨h.1, Bool.noConfusion⟩
  · exact Bool.noConfusion
  · trivial

/-- **What holds between any two steps.** -/
structure Sound (r : Roster) (acts : List Act) (x : System) : Prop where
  single : x.daemon.sessions.Single
  records : ∀ pid s, x.daemon.sessions.get? pid = some s → s.Records (r.of pid)
  stands : ∀ pid, (x.daemon.sessions.get? pid).map (·.token) = standing pid acts
  token : ∀ pid, (x.party pid).token = received pid acts
  phase : ∀ pid, (x.party pid).phase.Owes (x.party pid).token (standing pid acts) (wiped pid acts)
  refusal : ∀ pid, .refuse pid ∈ acts → ∃ e, Daemon.neededApp (r.of pid).app = .error e

namespace Sound

/-- A process is known by the token that stands for it. -/
theorem knows_iff (hx : Sound r acts x) (pid : UInt32) (token : String) :
    x.daemon.sessions.knows pid token = true ↔ standing pid acts = some token := by
  rw [← hx.stands, SessionTable.knows]
  cases x.daemon.sessions.get? pid <;> simp

/-- A process that stands has a session, with its token and with what it registers with. -/
theorem held (hx : Sound r acts x) {fresh : String} (h : standing pid acts = some fresh) :
    ∃ s, x.daemon.sessions.get? pid = some s ∧ s.token = fresh ∧ s.Records (r.of pid) := by
  have hstands := hx.stands pid
  rw [h] at hstands
  obtain ⟨s, hs, htoken⟩ := Option.map_eq_some_iff.mp hstands
  exact ⟨s, hs, htoken, hx.records pid s hs⟩

theorem records_step (hx : Sound r acts x) (h : Step r x act y) (s : Session)
    (hs : y.daemon.sessions.get? q = some s) : s.Records (r.of q) := by
  cases turn_step h q with
  | kept f token records session stands =>
    rw [session] at hs
    obtain ⟨s₀, hs₀, rfl⟩ := Option.map_eq_some_iff.mp hs
    exact records s₀ (hx.records q s₀ hs₀)
  | registered records session stands =>
    rw [session] at hs
    exact Option.some.inj hs ▸ records
  | gone session stands =>
    rw [session] at hs
    cases hs

theorem stands_step (hx : Sound r acts x) (h : Step r x act y) (q : UInt32) :
    (y.daemon.sessions.get? q).map (·.token) = standing q (acts ++ [act]) := by
  rw [standing_append]
  cases turn_step h q with
  | kept f token records session stands =>
    rw [stands, session, Option.map_map, ← hx.stands q]
    congr 1
    funext s
    exact token s
  | registered records session stands =>
    rw [stands, session]
    rfl
  | gone session stands =>
    rw [stands, session]
    rfl

theorem token_step (hx : Sound r acts x) (h : Step r x act y) (q : UInt32) :
    (y.party q).token = received q (acts ++ [act]) := by
  rw [received_append, ← hx.token q]
  cases hparty : act.party? with
  | none => cases h <;> first | rfl | cases hparty
  | some pid =>
    by_cases hq : q = pid
    · subst hq
      cases h <;> cases hparty <;> simp [obtain?]
    · rw [(apart_step h hparty hq).2, obtain?_of_ne hparty hq]

/-- What the process is told is true: the daemon's answer says how the tokens
of the two sides compare, and only a wipe can make it false on its way. -/
theorem phase_step (hx : Sound r acts x) (h : Step r x act y) (q : UInt32) :
    (y.party q).phase.Owes (y.party q).token (standing q (acts ++ [act]))
      (wiped q (acts ++ [act])) := by
  have hq := hx.phase q
  rw [standing_append, wiped_append]
  cases hparty : act.party? with
  | none =>
    cases h with
    | restart settings => exact hq.wiped
    | other sessions tokens => exact hq
    | _ => cases hparty
  | some pid =>
    by_cases hpid : q = pid
    · subst hpid
      cases h with
      | present idle held =>
        cases hparty
        simpa [Phase.Owes] using held
      | @judge _ token answer d shows judges =>
        cases hparty
        have htoken : (x.party q).token = some token := by
          rw [shows] at hq
          exact hq
        rw [System.become_party_self]
        cases hknown : answer.known with
        | false => trivial
        | true =>
          have hknows := x.daemon.heartbeat_known { pid := q, livenessToken := token }
          rw [judges, hknown] at hknows
          refine ⟨by simp [htoken], fun _ => ?_⟩
          rw [htoken]
          exact (hx.knows_iff q token).mp hknows.symm
      | register asks registers =>
        cases hparty
        rw [System.become_party_self]
        exact fun _ => if_pos rfl
      | report f =>
        cases hparty
        exact hq
      | drop drops =>
        cases hparty
        have hwiped : ∀ b, wipe q b (.drop q) = true := fun _ => if_pos rfl
        rw [hwiped]
        exact hq.wiped
      | restart settings => cases hparty
      | other sessions tokens => cases hparty
      | _ =>
        cases hparty
        simp [Phase.Owes]
    · rw [(apart_step h hparty hpid).2, stand_of_ne hparty hpid, wipe_of_ne hparty hpid]
      exact hq

theorem refusal_step (hx : Sound r acts x) (h : Step r x act y) (q : UInt32)
    (hq : .refuse q ∈ acts ++ [act]) : ∃ e, Daemon.neededApp (r.of q).app = .error e := by
  rcases List.mem_append.mp hq with hq | hq
  · exact hx.refusal q hq
  · rw [← List.mem_singleton.mp hq] at h
    cases h with
    | refuse asks refuses => exact ⟨_, (Daemon.registerSession_error refuses).1⟩

/-- **A step keeps this.** -/
theorem step (hx : Sound r acts x) (h : Step r x act y) : Sound r (acts ++ [act]) y where
  single := single_step h hx.single
  records _ := hx.records_step h
  stands := hx.stands_step h
  token := hx.token_step h
  phase := hx.phase_step h
  refusal := hx.refusal_step h

/-- **Right after a beat of which every call was answered, the two sides agree.** -/
theorem healed (hx : Sound r acts x) (h : Step r x act y) (hends : act.concludes pid = true)
    (hwiped : wiped pid (acts ++ [act]) = false) :
    ∃ s, y.daemon.sessions.get? pid = some s ∧ some s.token = (y.party pid).token ∧
      s.Records (r.of pid) := by
  have howes := hx.phase pid
  rw [wiped_append] at hwiped
  cases h with
  | @known p judged =>
    obtain rfl : p = pid := by simpa [Act.concludes] using hends
    rw [judged] at howes
    obtain ⟨token, htoken⟩ := Option.ne_none_iff_exists'.mp howes.1
    have hstands := howes.2 hwiped
    rw [htoken] at hstands
    obtain ⟨s, hs, hsame, hrecords⟩ := hx.held hstands
    refine ⟨s, hs, ?_, hrecords⟩
    rw [System.become_party_self, hsame]
    exact htoken.symm
  | @receive p token granted =>
    obtain rfl : p = pid := by simpa [Act.concludes] using hends
    rw [granted] at howes
    obtain ⟨s, hs, hsame, hrecords⟩ := hx.held (howes hwiped)
    refine ⟨s, hs, ?_, hrecords⟩
    rw [System.become_party_self, hsame]
  | _ => cases hends

end Sound

theorem sound_start (r : Roster) (settings : Daemon.Settings) (machine : Machine) :
    Sound r [] (System.start settings machine) := by
  have hnone : ∀ pid, (System.start settings machine).daemon.sessions.get? pid = none := by
    intro pid
    show (Daemon.boot settings machine).sessions.get? pid = none
    rw [Daemon.boot_sessions]
    rfl
  constructor
  case single =>
    show (Daemon.boot settings machine).sessions.Single
    rw [Daemon.boot_sessions]
    exact .nil
  case records =>
    intro pid s hs
    rw [hnone] at hs
    cases hs
  case stands =>
    intro pid
    rw [hnone]
    rfl
  case token => exact fun _ => rfl
  case phase => exact fun _ => trivial
  case refusal => exact fun _ h => absurd h List.not_mem_nil

theorem sound_run {settings : Daemon.Settings} {machine : Machine}
    (h : Run r (System.start settings machine) acts x) : Sound r acts x := by
  induction h with
  | nil => exact sound_start r settings machine
  | snoc _ step ih => exact ih.step step

/-! ## Beats that are answered -/

/-- Right after a beat of which every call was answered, if nothing was wiped meanwhile. -/
theorem healed_run {settings : Daemon.Settings} {machine : Machine}
    (h : Run r (System.start settings machine) acts x) (hlast : acts.getLast? = some act)
    (hends : act.concludes pid = true) (hwiped : wiped pid acts = false) :
    ∃ s, x.daemon.sessions.get? pid = some s ∧ some s.token = (x.party pid).token ∧
      s.Records (r.of pid) := by
  cases h with
  | nil => cases hlast
  | snoc run step =>
    obtain rfl : _ = act := by simpa using hlast
    exact (sound_run run).healed step hends hwiped

/-- A process that is not dropped has nothing wiped by its own steps. -/
theorem wipe_own (hown : act.party? = some pid) (hstays : act ≠ .drop pid) :
    wipe pid false act = false := by
  cases act with
  | tick p => exact ite_self false
  | judge p _ _ => exact ite_self false
  | register p _ => exact ite_self false
  | drop p =>
    cases hown
    exact absurd rfl hstays
  | restart => cases hown
  | _ => rfl

/-- An exchange that began with a beat makes up for all that was wiped before. -/
theorem Exchange.wiped {answered : Prop} {beat : List Act} (h : Exchange pid answered beat)
    (hticks : beat.head? = some (.tick pid)) (before : List Act) :
    wiped pid (before ++ beat) = false := by
  obtain ⟨rest, rfl⟩ : ∃ rest, beat = .tick pid :: rest := by
    cases beat with
    | nil => cases hticks
    | cons act rest => exact ⟨rest, congrArg (· :: rest) (Option.some.inj hticks)⟩
  have hkept : ∀ acts : List Act, (∀ act ∈ acts, act.party? = some pid) → .drop pid ∉ acts →
      acts.foldl (wipe pid) false = false := by
    intro acts hown hstays
    induction acts with
    | nil => rfl
    | cons act acts ih =>
      obtain ⟨hact, hdrop⟩ := List.ne_and_not_mem_of_not_mem_cons hstays
      rw [List.foldl_cons, wipe_own (hown act List.mem_cons_self) (Ne.symm hact)]
      exact ih (fun act hact => hown act (List.mem_cons_of_mem _ hact)) hdrop
  have hbegun : ∀ b, wipe pid b (.tick pid) = false := fun _ => if_pos rfl
  rw [Liveness.wiped, List.foldl_append, List.foldl_cons, hbegun]
  exact hkept rest (fun act hact => h.own act (List.mem_cons_of_mem _ hact))
    fun hdrop => h.stays (List.mem_cons_of_mem _ hdrop)

/-- **After `Link.beat`, the daemon knows the process by the token it holds**, and
has all that it registers with, whatever was lost, dropped or forgotten before:
only the calls of this beat have to be answered, and nobody else's steps may
fall between them. -/
theorem beat_heals {settings : Daemon.Settings} {machine : Machine} {link : Link Daemon}
    (h : Run r (System.start settings machine) acts x) (hlink : Lossy link)
    (hidle : (x.party pid).phase = .idle)
    (hanswers : Answers link (r.of pid) (x.party pid).token x.daemon) :
    let (token, d) := link.beat (r.of pid) (x.party pid).token x.daemon
    ∃ s, d.sessions.get? pid = some s ∧ some s.token = token ∧ s.Records (r.of pid) := by
  obtain ⟨beat, hbeat, hticks, hexchange⟩ := run_beat (r := r) hlink hidle
  obtain ⟨act, hlast, hends⟩ := hexchange.concludes hanswers
  have hlast' : (acts ++ beat).getLast? = some act := by
    rw [List.getLast?_append, hlast, Option.some_or]
  have hhealed := healed_run (h.append hbeat) hlast' hends (hexchange.wiped hticks acts)
  simpa using hhealed

/-- Over a line that loses nothing one beat is enough, for a process that names
its application. -/
theorem beat_link_heals {settings : Daemon.Settings} {machine : Machine} {app : AppDescriptor}
    (h : Run r (System.start settings machine) acts x) (hidle : (x.party pid).phase = .idle)
    (happ : Daemon.neededApp (r.of pid).app = .ok app) :
    let (token, d) := Daemon.link.beat (r.of pid) (x.party pid).token x.daemon
    ∃ s, d.sessions.get? pid = some s ∧ some s.token = token ∧ s.Records (r.of pid) :=
  beat_heals h lossy_link hidle (answers_link happ _ _)

/-! ## Staying known -/

/-- **What ties the processes to the daemon**, whatever was lost, dropped or
forgotten before. -/
structure Lawful (r : Roster) (acts : List Act) (x : System) : Prop where
  /-- The daemon knows a process by the token of its last registration, unless
  that was dropped or forgotten since, and by no other. -/
  known : ∀ pid token,
    (x.daemon.heartbeat { pid, livenessToken := token }).1.known = true ↔
      standing pid acts = some token
  /-- No process has two sessions. -/
  single : x.daemon.sessions.sessions.Pairwise fun a b => a.pid < b.pid
  /-- The token of a process is the one it was sent last: nothing else changes it. -/
  token : ∀ pid, (x.party pid).token = received pid acts
  /-- Right after a beat of which every call was answered, the daemon holds a
  session with the token of the process and with all it registers with, unless
  that was dropped, or the daemon started anew, since it gave its last answer. -/
  healed : ∀ pid act, acts.getLast? = some act → act.concludes pid = true →
    wiped pid acts = false →
    ∃ s, x.daemon.sessions.get? pid = some s ∧ some s.token = (x.party pid).token ∧
      s.Records (r.of pid)
  /-- A registration is refused only if it does not name the application. -/
  refusal : ∀ pid, .refuse pid ∈ acts → ∃ e, Daemon.neededApp (r.of pid).app = .error e
  /-- What a process does next, and what is done about it, leaves the sessions
  and the tokens of all others as they are. -/
  apart : ∀ act y pid, Step r x act y → act.party? = some pid → ∀ q ≠ pid,
    y.daemon.sessions.get? q = x.daemon.sessions.get? q ∧ y.party q = x.party q

/-- **A process that beats stays known**, or is known again as soon as its
calls are answered, whatever any number of processes and the daemon do. -/
theorem liveness_run (r : Roster) (settings : Daemon.Settings) (machine : Machine)
    {acts : List Act} {x : System} (h : Run r (System.start settings machine) acts x) :
    Lawful r acts x := by
  have hx := sound_run h
  refine ⟨?_, hx.single, hx.token, ?_, hx.refusal, fun _ _ _ h hact _ => apart_step h hact⟩
  · intro pid token
    rw [Daemon.heartbeat_known]
    exact hx.knows_iff pid token
  · exact fun pid act hlast hends hwiped => healed_run h hlast hends hwiped

/-- A process is registered and never hears of it, so that its first beat
registers it again: from then on it is known by the second token. -/
theorem liveness_run_lost :
    let r : Roster := {
      of pid := {
        pid
        app := some { appId := "app" }
        moduleIds := ["hooks"]
        registryVersion := 1 }
      own _ := rfl }
    let acts : List Act := [.fork 7, .register 7 "token0", .fail 7,
      .tick 7, .register 7 "token1", .receive 7 "token1"]
    ∃ x, Run r (System.start default { tokens := { name n := "token" ++ toString n } }) acts x ∧
      Lawful r acts x ∧ standing 7 acts = some "token1" ∧ wiped 7 acts = false := by
  intro r acts
  have happ : Daemon.neededApp (r.of 7).app = .ok { appId := "app" } := rfl
  obtain ⟨d₁, hfirst, htokens⟩ := Daemon.registerSession_named
    (System.start default { tokens := { name n := "token" ++ toString n } }).daemon happ
  obtain ⟨d₂, hsecond, -⟩ := Daemon.registerSession_named d₁ happ
  rw [htokens] at hsecond
  rw [System.start, Daemon.boot_tokens] at hfirst hsecond
  have hforked := Run.nil.snoc (@Step.fork r
    (System.start default { tokens := { name n := "token" ++ toString n } }) 7 rfl)
  have hunheard := hforked.snoc (@Step.register r _ 7 _ _ rfl hfirst)
  have hlost := hunheard.snoc (@Step.fail r _ 7 nofun)
  have hasks := hlost.snoc (@Step.ask r _ 7 rfl rfl)
  have hanswered := hasks.snoc (@Step.register r _ 7 _ _ rfl hsecond)
  have hheard := hanswered.snoc (@Step.receive r _ 7 _ rfl)
  exact ⟨_, hheard, liveness_run r _ _ hheard, rfl, rfl⟩

end Interpose.Liveness
