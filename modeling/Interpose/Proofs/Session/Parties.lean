/-
Interpose.Proofs.Session.Parties — processes that stay known to a daemon, step by step.

`Link.beat` is a beat of one process in one go. In truth a call is a
message to the daemon, what the daemon does with it, and a message back;
either message may be lost, other processes call meanwhile, sessions are
dropped, and the daemon may be started anew, upon which it knows nobody.
The process cannot tell which of the messages was lost, nor a loss from a
refusal: its call fails, and its next beat tries again.

`run_beat` says that a beat that nobody else's steps fall between does what
`Link.beat` does, over a line that loses what it likes (`Lossy`), and that it
comes to its end if the line answers every call (`Exchange`); one that loses
nothing does (`answers_link`). `run_reap` says that `Daemon.reap` is a row of
these steps.

Main statements: `run_beat`, `run_reap`.
-/
import Interpose.Proofs.Session.Table
import Interpose.Daemon.Link

namespace Interpose.Liveness

/-! ## States -/

/-- What each process registers with, each time it does. -/
structure Roster where
  of : UInt32 → Registration
  own (pid : UInt32) : (of pid).pid = pid

/-- Where a process stands in its exchange with the daemon. -/
inductive Phase where
  | idle
  /-- It has shown its token. -/
  | showing (token : String)
  /-- The daemon has said whether it knows the token. -/
  | judged (known : Bool)
  /-- It has asked to be registered. -/
  | asking
  /-- The daemon has registered it, under a new token. -/
  | granted (token : String)
  /-- The daemon has refused to register it. -/
  | refused
  deriving DecidableEq

structure Party where
  token : Option String := none
  phase : Phase := .idle

/-- A daemon, and the process of each id. -/
structure System where
  daemon : Daemon
  party : UInt32 → Party := fun _ => {}

namespace System

/-- A daemon that has just been started, and processes that have not called it yet. -/
def start (settings : Daemon.Settings) (machine : Machine) : System where
  daemon := Daemon.boot settings machine

/-- A process comes to hold a token and to a phase, and the daemon may change with it. -/
def become (x : System) (pid : UInt32) (token : Option String) (phase : Phase) (d : Daemon) :
    System where
  daemon := d
  party q := if q = pid then { token, phase } else x.party q

end System

/-! ## Steps -/

inductive Act where
  /-- A new process asks to be registered. -/
  | fork (pid : UInt32)
  /-- A process begins a beat: it shows its token, or asks to be registered if it has none. -/
  | tick (pid : UInt32)
  | judge (pid : UInt32) (token : String) (known : Bool)
  | register (pid : UInt32) (token : String)
  | refuse (pid : UInt32)
  /-- A process is told whether it is known. -/
  | told (pid : UInt32) (known : Bool)
  | receive (pid : UInt32) (token : String)
  /-- A call fails: a message was lost, or the daemon refused. -/
  | fail (pid : UInt32)
  | report (r : FailureReport)
  /-- An overdue session is dropped. -/
  | drop (pid : UInt32)
  /-- The daemon is started anew. -/
  | restart
  /-- The daemon does something that is not about sessions. -/
  | other
  deriving DecidableEq

/-- The process a step is about. -/
def Act.party? : Act → Option UInt32
  | fork pid | tick pid | judge pid _ _ | register pid _ | refuse pid | told pid _
  | receive pid _ | fail pid | drop pid => some pid
  | report r => some r.pid
  | restart | other => none

/-- Whether a step ends a beat of a process of which every call was answered:
either the process is known, or it is now registered. -/
def Act.concludes (pid : UInt32) : Act → Bool
  | told p true | receive p _ => p == pid
  | _ => false

/-- The steps of the processes and of the daemon. -/
inductive Step (r : Roster) (x : System) : Act → System → Prop
  | fork {pid : UInt32} (idle : (x.party pid).phase = .idle) :
    Step r x (.fork pid) (x.become pid (x.party pid).token .asking x.daemon)
  | present {pid : UInt32} {token : String} (idle : (x.party pid).phase = .idle)
      (held : (x.party pid).token = some token) :
    Step r x (.tick pid) (x.become pid (x.party pid).token (.showing token) x.daemon)
  | ask {pid : UInt32} (idle : (x.party pid).phase = .idle) (none : (x.party pid).token = none) :
    Step r x (.tick pid) (x.become pid (x.party pid).token .asking x.daemon)
  | judge {pid : UInt32} {token : String} {answer : HeartbeatAnswer} {d : Daemon}
      (shows : (x.party pid).phase = .showing token)
      (judges : x.daemon.heartbeat { pid, livenessToken := token } = (answer, d)) :
    Step r x (.judge pid token answer.known)
      (x.become pid (x.party pid).token (.judged answer.known) d)
  | register {pid : UInt32} {answer : RegistrationAnswer} {d : Daemon}
      (asks : (x.party pid).phase = .asking)
      (registers : x.daemon.registerSession (r.of pid) = (.ok answer, d)) :
    Step r x (.register pid answer.livenessToken)
      (x.become pid (x.party pid).token (.granted answer.livenessToken) d)
  | refuse {pid : UInt32} {e : CallFault} {d : Daemon} (asks : (x.party pid).phase = .asking)
      (refuses : x.daemon.registerSession (r.of pid) = (.error e, d)) :
    Step r x (.refuse pid) (x.become pid (x.party pid).token .refused d)
  | known {pid : UInt32} (judged : (x.party pid).phase = .judged true) :
    Step r x (.told pid true) (x.become pid (x.party pid).token .idle x.daemon)
  | unknown {pid : UInt32} (judged : (x.party pid).phase = .judged false) :
    Step r x (.told pid false) (x.become pid (x.party pid).token .asking x.daemon)
  | receive {pid : UInt32} {token : String} (granted : (x.party pid).phase = .granted token) :
    Step r x (.receive pid token) (x.become pid (some token) .idle x.daemon)
  | fail {pid : UInt32} (busy : (x.party pid).phase ≠ .idle) :
    Step r x (.fail pid) (x.become pid (x.party pid).token .idle x.daemon)
  | report (f : FailureReport) :
    Step r x (.report f) { x with daemon := (x.daemon.reportFailure f).2 }
  | drop {pid : UInt32} {now ttl : Nat} {s : Session} {t : SessionTable}
      (drops : x.daemon.sessions.dropOverdue now ttl pid = (some s, t)) :
    Step r x (.drop pid) { x with daemon := { x.daemon with sessions := t } }
  | restart (settings : Daemon.Settings) :
    Step r x .restart { x with daemon := Daemon.boot settings x.daemon.machine }
  | other {d : Daemon} (sessions : d.sessions = x.daemon.sessions)
      (tokens : d.tokens = x.daemon.tokens) : Step r x .other { x with daemon := d }

/-- Steps one after another. -/
inductive Run (r : Roster) (x₀ : System) : List Act → System → Prop
  | nil : Run r x₀ [] x₀
  | snoc {acts : List Act} {x y : System} {act : Act} (run : Run r x₀ acts x)
      (step : Step r x act y) : Run r x₀ (acts ++ [act]) y

variable {r : Roster} {x y z x₀ : System} {act : Act} {acts acts' : List Act} {pid : UInt32}
  {token token' : Option String} {g g' : Phase} {d d' : Daemon}

theorem Run.append (h : Run r x₀ acts x) (h' : Run r x acts' y) :
    Run r x₀ (acts ++ acts') y := by
  induction h' with
  | nil => rwa [List.append_nil]
  | snoc _ step ih =>
    rw [← List.append_assoc]
    exact ih.snoc step

namespace System

@[simp] theorem become_daemon : (x.become pid token g d).daemon = d := rfl

@[simp] theorem become_party_self : (x.become pid token g d).party pid = { token, phase := g } :=
  if_pos rfl

theorem become_party_of_ne {q : UInt32} (h : q ≠ pid) :
    (x.become pid token g d).party q = x.party q := if_neg h

@[simp] theorem become_become :
    (x.become pid token g d).become pid token' g' d' = x.become pid token' g' d' := by
  rw [become, become, become]
  congr 1
  funext q
  by_cases hq : q = pid <;> simp [hq]

end System

/-! ## A beat that is left alone -/

/-- What a line makes of a call that the daemon would have answered: it may
carry it there and back, lose it on the way, or lose the answer. -/
inductive Carried {α : Type} (d : Daemon) (answered : Except LinkError α × Daemon) :
    Except LinkError α × Daemon → Prop
  | through : Carried d answered answered
  | requestLost (e : LinkError) : Carried d answered (.error e, d)
  | answerLost (e : LinkError) : Carried d answered (.error e, answered.2)

/-- A line to a daemon that loses what it likes. -/
structure Lossy (link : Link Daemon) : Prop where
  register : ∀ r d, Carried d (Daemon.link.register r d) (link.register r d)
  heartbeat : ∀ pid token d,
    Carried d (Daemon.link.heartbeat pid token d) (link.heartbeat pid token d)

/-- A line that loses nothing. -/
theorem lossy_link : Lossy Daemon.link := ⟨fun _ _ => .through, fun _ _ _ => .through⟩

variable {link : Link Daemon}

/-- What the process holds once its registration has been answered, or lost. -/
def renewed (token : Option String) : Except LinkError String → Option String
  | .ok fresh => some fresh
  | .error _ => token

/-- A line answers a registration. -/
def Registers (link : Link Daemon) (reg : Registration) (d : Daemon) : Prop :=
  ∃ fresh, (link.register reg d).1 = .ok fresh

/-- A line answers every call of a beat: it knows the token that is shown, or
registers the process anew. -/
def Answers (link : Link Daemon) (reg : Registration) (token : Option String) (d : Daemon) :
    Prop :=
  match token with
  | none => Registers link reg d
  | some token =>
    match link.heartbeat reg.pid token d with
    | (.error _, _) => False
    | (.ok true, _) => True
    | (.ok false, d) => Registers link reg d

/-- A row of steps that is one exchange of a process with the daemon: all are
about the process, none drops its session, and the last one concludes if every
call was answered. -/
structure Exchange (pid : UInt32) (answered : Prop) (acts : List Act) : Prop where
  own : ∀ act ∈ acts, act.party? = some pid
  stays : .drop pid ∉ acts
  concludes : answered → ∃ act, acts.getLast? = some act ∧ act.concludes pid = true

theorem Exchange.imp {answered answered' : Prop} (h : Exchange pid answered acts)
    (himp : answered' → answered) : Exchange pid answered' acts where
  own := h.own
  stays := h.stays
  concludes := fun hanswered => h.concludes (himp hanswered)

/-- An exchange goes on where the process has come to. -/
theorem Exchange.append {answered : Prop} {acts acts' : List Act}
    (hown : ∀ act ∈ acts, act.party? = some pid) (hstays : .drop pid ∉ acts)
    (h : Exchange pid answered acts') : Exchange pid answered (acts ++ acts') where
  own := fun act hact => (List.mem_append.mp hact).elim (hown act) (h.own act)
  stays := fun hdrop => (List.mem_append.mp hdrop).elim hstays h.stays
  concludes := fun hanswered => by
    obtain ⟨act, hlast, hends⟩ := h.concludes hanswered
    exact ⟨act, by rw [List.getLast?_append, hlast, Option.some_or], hends⟩

/-- A call fails, and leaves the process with the token it had. -/
theorem Run.fails (h : Run r x acts (x.become pid token g d)) (hbusy : g ≠ .idle) :
    Run r x (acts ++ [.fail pid]) (x.become pid token .idle d) := by
  have hfailed := h.snoc (@Step.fail r _ pid (by simpa using hbusy))
  simpa using hfailed

/-- **A registration that is left alone**: the process has a new token, or the
one it had. -/
theorem run_register (hlink : Lossy link) (hasks : (x.party pid).phase = .asking) :
    ∃ acts, Run r x acts (x.become pid
        (renewed (x.party pid).token (link.register (r.of pid) x.daemon).1) .idle
        (link.register (r.of pid) x.daemon).2) ∧
      Exchange pid (Registers link (r.of pid) x.daemon) acts := by
  have hcarried := hlink.register (r.of pid) x.daemon
  rw [Registers]
  generalize link.register (r.of pid) x.daemon = result at hcarried ⊢
  rcases hregister : x.daemon.registerSession (r.of pid) with ⟨a, d⟩
  -- what the daemon makes of the request, if it gets it
  have hanswers : Daemon.link.register (r.of pid) x.daemon
      = (refusedCall (a.map (·.livenessToken)), d) := by simp only [Daemon.link, hregister]
  have hlost : ∃ acts, Run r x acts (x.become pid (x.party pid).token .idle d) ∧
      Exchange pid False acts := by
    cases a with
    | error e => exact ⟨_, (Run.nil.snoc (.refuse hasks hregister)).fails (by simp),
        by simp [Act.party?], by simp, False.elim⟩
    | ok answer => exact ⟨_, (Run.nil.snoc (.register hasks hregister)).fails (by simp),
        by simp [Act.party?], by simp, False.elim⟩
  have hunanswered : ∀ e : LinkError, ¬ ∃ fresh, (.error e : Except LinkError String) = .ok fresh :=
    fun e ⟨_, heq⟩ => nomatch heq
  rw [hanswers] at hcarried
  cases hcarried with
  | requestLost e =>
    refine ⟨_, Run.nil.snoc (.fail ?_), by simp [Act.party?], by simp,
      fun hanswered => (hunanswered e hanswered).elim⟩
    rw [hasks]
    exact Phase.noConfusion
  | answerLost e =>
    obtain ⟨acts, hrun, hexchange⟩ := hlost
    exact ⟨acts, hrun, hexchange.imp (hunanswered e)⟩
  | through =>
    cases a with
    | error e =>
      obtain ⟨acts, hrun, hexchange⟩ := hlost
      exact ⟨acts, hrun, hexchange.imp (hunanswered .refused)⟩
    | ok answer =>
      have hgranted := Run.nil.snoc (Step.register (r := r) hasks hregister)
      have hreceived := hgranted.snoc (@Step.receive r _ pid _ (by simp; rfl))
      simp only [System.become_become, System.become_daemon] at hreceived
      exact ⟨_, hreceived, by simp [Act.party?], by simp, fun _ => ⟨_, rfl, by simp [Act.concludes]⟩⟩

theorem beat_none (link : Link Daemon) (reg : Registration) (d : Daemon) :
    link.beat reg none d = (renewed none (link.register reg d).1, (link.register reg d).2) := by
  rw [Link.beat]
  rcases hregister : link.register reg d with ⟨_ | _, _⟩ <;> simp [hregister, renewed]

theorem beat_some (link : Link Daemon) (reg : Registration) (token : String) (d : Daemon) :
    link.beat reg (some token) d =
      match link.heartbeat reg.pid token d with
      | (.ok false, d) =>
        (renewed (some token) (link.register reg d).1, (link.register reg d).2)
      | (_, d) => (some token, d) := by
  rw [Link.beat]
  rcases link.heartbeat reg.pid token d with ⟨_ | _ | _, d⟩
  · rfl
  · rcases hregister : link.register reg d with ⟨_ | _, _⟩ <;> simp [hregister, renewed]
  · rfl

/-- **A beat that is left alone does what `Link.beat` does**, whatever the line
loses of it; and if the line answers every call, its last step says so. -/
theorem run_beat (hlink : Lossy link) (hidle : (x.party pid).phase = .idle) :
    ∃ acts, Run r x acts (x.become pid
        (link.beat (r.of pid) (x.party pid).token x.daemon).1 .idle
        (link.beat (r.of pid) (x.party pid).token x.daemon).2) ∧
      acts.head? = some (.tick pid) ∧
      Exchange pid (Answers link (r.of pid) (x.party pid).token x.daemon) acts := by
  -- a process that has come to ask, and all its steps before that were its own
  have hasking : ∀ before d,
      Run r x before (x.become pid (x.party pid).token .asking d) →
      before.head? = some (.tick pid) → (∀ act ∈ before, act.party? = some pid) →
      .drop pid ∉ before →
      ∃ acts, Run r x acts (x.become pid
          (renewed (x.party pid).token (link.register (r.of pid) d).1) .idle
          (link.register (r.of pid) d).2) ∧
        acts.head? = some (.tick pid) ∧ Exchange pid (Registers link (r.of pid) d) acts := by
    intro before d hbefore hticks hown hstays
    obtain ⟨after, hafter, hexchange⟩ :=
      @run_register r (x.become pid (x.party pid).token .asking d) pid link hlink (by simp)
    simp only [System.become_become, System.become_party_self, System.become_daemon]
      at hafter hexchange
    refine ⟨_, hbefore.append hafter, ?_, hexchange.append hown hstays⟩
    rw [List.head?_append, hticks, Option.some_or]
  cases htoken : (x.party pid).token with
  | none =>
    rw [beat_none]
    have hasks := Run.nil.snoc (Step.ask (r := r) hidle htoken)
    rw [htoken] at hasking hasks
    exact hasking _ _ hasks rfl (by simp [Act.party?]) (by simp)
  | some token =>
    have hshown := Run.nil.snoc (Step.present (r := r) hidle htoken)
    have hcarried := hlink.heartbeat (r.of pid).pid token x.daemon
    rw [beat_some, Answers]
    rw [r.own] at hcarried ⊢
    generalize link.heartbeat pid token x.daemon = result at hcarried ⊢
    rcases hjudge : x.daemon.heartbeat { pid, livenessToken := token } with ⟨answer, d⟩
    have hanswers : Daemon.link.heartbeat pid token x.daemon = (.ok answer.known, d) := by
      simp only [Daemon.link, hjudge]
    have hjudged := hshown.snoc (@Step.judge r _ pid token answer d (by simp)
      (by simpa using hjudge))
    simp only [System.become_become, System.become_party_self] at hjudged
    rw [hanswers] at hcarried
    cases hcarried with
    | requestLost e =>
      have hfailed := hshown.fails (by simp)
      rw [htoken] at hfailed
      exact ⟨_, hfailed, rfl, by simp [Act.party?], by simp, False.elim⟩
    | answerLost e =>
      have hfailed := hjudged.fails (by simp)
      rw [htoken] at hfailed
      exact ⟨_, hfailed, rfl, by simp [Act.party?], by simp, False.elim⟩
    | through =>
      cases hknown : answer.known with
      | true =>
        rw [hknown] at hjudged
        have htold := hjudged.snoc (@Step.known r _ pid (by simp))
        simp only [System.become_become, System.become_party_self, htoken] at htold
        exact ⟨_, htold, rfl, by simp [Act.party?], by simp,
          fun _ => ⟨_, rfl, by simp [Act.concludes]⟩⟩
      | false =>
        rw [hknown] at hjudged
        have htold := hjudged.snoc (@Step.unknown r _ pid (by simp))
        simp only [System.become_become, System.become_party_self, System.become_daemon] at htold
        rw [htoken] at hasking htold
        exact hasking _ _ htold rfl (by simp [Act.party?]) (by simp)

/-- A line that loses nothing answers every beat of a process that names its
application. -/
theorem answers_link {reg : Registration} {app : AppDescriptor}
    (happ : Daemon.neededApp reg.app = .ok app) (token : Option String) (d : Daemon) :
    Answers Daemon.link reg token d := by
  have hregisters : ∀ d, Registers Daemon.link reg d := by
    intro d
    obtain ⟨d', hregister, -⟩ := Daemon.registerSession_named d happ
    exact ⟨_, by simp only [Daemon.link, hregister]; rfl⟩
  cases token with
  | none => exact hregisters d
  | some token =>
    rw [Answers]
    simp only [Daemon.link]
    cases (d.heartbeat { pid := reg.pid, livenessToken := token }).1.known with
    | true => trivial
    | false => exact hregisters _

/-! ## Dropping -/

theorem publish_all_sessions (es : List Event) (d : Daemon) :
    (es.foldl Daemon.publish d).sessions = d.sessions ∧
      (es.foldl Daemon.publish d).tokens = d.tokens := by
  induction es generalizing d with
  | nil => exact ⟨rfl, rfl⟩
  | cons e es ih => exact ih (d.publish e)

theorem run_drops (r : Roster) (now ttl : Nat) (pids : List UInt32) (x : System) :
    ∃ acts, Run r x acts { x with daemon := { x.daemon with
        sessions := (SessionTable.dropEach now ttl pids x.daemon.sessions).2 } } ∧
      ∀ act ∈ acts, ∃ pid, act = .drop pid := by
  induction pids generalizing x with
  | nil => exact ⟨[], .nil, by simp⟩
  | cons pid pids ih =>
    rcases hdrop : x.daemon.sessions.dropOverdue now ttl pid with ⟨gone, t⟩
    simp only [SessionTable.dropEach, hdrop]
    cases gone with
    | none =>
      rw [SessionTable.dropOverdue_none hdrop]
      exact ih x
    | some s =>
      obtain ⟨acts, hrun, hdrops⟩ := ih { x with daemon := { x.daemon with sessions := t } }
      refine ⟨_, (Run.nil.snoc (.drop hdrop)).append hrun, fun act hact => ?_⟩
      rcases List.mem_append.mp hact with hact | hact
      · exact ⟨pid, List.mem_singleton.mp hact⟩
      · exact hdrops act hact

/-- **Dropping every overdue session is a row of steps**, of which all but the
last drop one session. -/
theorem run_reap (r : Roster) (x : System) :
    ∃ acts, Run r x (acts ++ [.other]) { x with daemon := x.daemon.reap } ∧
      ∀ act ∈ acts, ∃ pid, act = .drop pid := by
  obtain ⟨acts, hrun, hdrops⟩ := run_drops r x.daemon.clock.nanos
    x.daemon.sessions.ttl.totalNanos
    (x.daemon.sessions.overdue x.daemon.clock.nanos x.daemon.sessions.ttl.totalNanos) x
  obtain ⟨hsessions, htokens⟩ := publish_all_sessions
    ((x.daemon.sessions.reap x.daemon.clock.nanos).1.map (Daemon.expiry x.daemon.now))
    { x.daemon with sessions := (x.daemon.sessions.reap x.daemon.clock.nanos).2 }
  exact ⟨acts, hrun.snoc (.other hsessions htokens), hdrops⟩

end Interpose.Liveness
