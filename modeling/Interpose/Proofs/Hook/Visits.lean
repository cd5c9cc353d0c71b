/-
Interpose.Proofs.Hook.Visits — the way of a call through a dispatcher.

What a call has yet to do in a dispatcher is in its visit, and a visit has
nothing to do with the process: nobody but the thread that has it can change
it, and no two threads have the same. A step of a thread does one of four
things to its visits (`Moves`), and from these it follows, whatever the
other threads do, that a call walks down the layers that it found when it
came, in order, and then comes to what was below them (`Walks`).

Main statements: `step_moves`, `walks_moment`.
-/
import Interpose.Proofs.Host.Threads

namespace Interpose

variable {ν : Type}

/-! ## Visits -/

def Place.visits : {ρ : Role} → Place ν ρ → List (Visit ν)
  | .plain, _ => []
  | .layer, v => [v]

def Purpose.visits : Purpose ν → List (Visit ν)
  | .resume _ place => place.visits
  | .call _ _ => []

def Now.visits : Now ν → List (Visit ν)
  | .code _ place => place.visits
  | .walk v _ => [v]
  | .drop _ _ _ place => place.visits
  | _ => []

def Awaiting.visits : Awaiting ν → List (Visit ν)
  | .resume _ place => place.visits
  | .init _ purpose => purpose.visits

/-- The calls of a thread that have layers, or what is below them, yet to reach. -/
def Thread.visits (t : Thread ν) : List (Visit ν) :=
  t.now.visits ++ t.stack.flatMap Awaiting.visits

def Scene.visits (x : Scene ν) : List (Visit ν) := x.threads.flatMap Thread.visits

namespace Thread

variable {n : Nat} {t u : Thread ν} {e : Sight ν} {p q : Host ν} {stack : List (Awaiting ν)}

/-- What a step makes of the calls of a thread. -/
inductive Moves (n : Nat) (p : Host ν) (t u : Thread ν) : Sight ν → Prop
  /-- Nothing, or a layer ends without handing its call on. -/
  | quiet (fewer : u.visits.Sublist t.visits) : Moves n p t u .quiet
  | enter {s : Nat} {c : Call} {slot : Slot ν} (now : t.now = .enter (.dispatcher s) c)
      (found : p.slots[s]? = some slot)
      (more : u.visits = ⟨n, slot.method, slot.base, c.this, slot.layers⟩ :: t.visits) :
      Moves n p t u (.entered slot.method slot.base slot.layers)
  | visit {v : Visit ν} {l : Layer ν} {rest : List (Layer ν)} {others : List (Visit ν)}
      (before : t.visits = v :: others) (next : v.below = l :: rest)
      (after : u.visits = { v with below := rest } :: others) :
      Moves n p t u (.visited v.since l)
  | reach {v : Visit ν} {others : List (Visit ν)} (before : t.visits = v :: others)
      (last : v.below = []) (after : u.visits = others) :
      Moves n p t u (.reached v.since v.base)

theorem Moves.same (h : u.visits = t.visits) : Moves n p t u .quiet := .quiet (h ▸ .refl _)

theorem visits_next (purpose : Purpose ν) (r : Except Throwable Unit) :
    (purpose.next r).visits = purpose.visits := by
  cases purpose with
  | resume k place => rfl
  | call m c => cases r <;> rfl

theorem visits_begin (className : String) (purpose : Purpose ν) (stack : List (Awaiting ν))
    (p : Host ν) : (begin className purpose stack p).1.visits
      = purpose.visits ++ stack.flatMap Awaiting.visits := by
  rw [begin]
  split
  · rw [visits, visits_next]
  · dsimp only
    split
    · rw [visits, visits_next]
    · rfl

theorem visits_request {ρ : Role} (code : Program ν ρ) (place : Place ν ρ)
    (stack : List (Awaiting ν)) (p : Host ν) : (request stack code place p).1.visits.Sublist
      (place.visits ++ stack.flatMap Awaiting.visits) := by
  cases code with
  | finish r => exact List.sublist_append_right _ _
  | ask a k => cases a <;> exact .refl _
  | redirect m body k =>
    rw [request]
    split <;> exact .refl _
  | initClass className k => exact visits_begin className (.resume k place) stack p ▸ .refl _
  | callBase h c k =>
    rw [request]
    split <;> exact .refl _
  | _ => exact .refl _

/-- **What a step does to the calls of a thread.** -/
theorem step_moves (h : t.step n p = some (e, u, q)) : Moves n p t u e := by
  obtain ⟨now, stack⟩ := t
  cases now with
  | code code place =>
    obtain ⟨rfl, hu⟩ := Prod.mk.inj (Option.some.inj h)
    have hvisits := visits_request code place stack p
    rw [hu] at hvisits
    exact .quiet hvisits
  | call m c =>
    rw [step] at h
    split at h
    · cases h
      exact .quiet (.refl _)
    · obtain ⟨rfl, hu⟩ := Prod.mk.inj (Option.some.inj h)
      rename_i info _
      have hvisits := visits_begin info.className (.call m c) stack p
      rw [hu] at hvisits
      exact .same hvisits
  | fetch m c =>
    rw [step] at h
    split at h <;> cases h <;> exact .quiet (.refl _)
  | enter entry c =>
    cases entry with
    | body b =>
      cases h
      exact .quiet (.refl _)
    | dispatcher s =>
      rw [step] at h
      split at h
      · cases h
      · rename_i slot hslot
        cases h
        exact .enter rfl hslot rfl
  | walk v args =>
    obtain ⟨c, m, base, this, _ | ⟨l, rest⟩⟩ := v
    · cases h
      exact .reach (v := ⟨c, m, base, this, []⟩) rfl rfl rfl
    · cases h
      exact .visit (v := ⟨c, m, base, this, l :: rest⟩) rfl rfl rfl
  | drop hs gone k place =>
    cases hs with
    | nil =>
      cases h
      exact .quiet (.refl _)
    | cons g hs =>
      rw [step] at h
      split at h <;> cases h <;> exact .quiet (.refl _)
  | done r =>
    rcases stack with _ | ⟨⟨k, place⟩ | ⟨className, purpose⟩, stack⟩
    · cases h
    · cases h
      exact .quiet (.refl _)
    · cases r <;> cases h <;> exact .same (congrArg (· ++ _) (visits_next purpose _))

theorem next_ne_enter (purpose : Purpose ν) (r : Except Throwable Unit) (e : Entry ν) (c : Call) :
    purpose.next r ≠ .enter e c := by
  cases purpose with
  | resume k place => exact nofun
  | call m c => cases r <;> exact nofun

theorem begin_ne_dispatcher (className : String) (purpose : Purpose ν) (s : Nat) (c : Call) :
    (begin className purpose stack p).1.now ≠ .enter (.dispatcher s) c := by
  rw [begin]
  split
  · exact next_ne_enter _ _ _ _
  · dsimp only
    split
    · exact next_ne_enter _ _ _ _
    · intro h
      cases h

theorem request_to_dispatcher {ρ : Role} {code : Program ν ρ} {place : Place ν ρ} {s : Nat}
    {c : Call} (hu : (request stack code place p).1.now = .enter (.dispatcher s) c) :
    ∃ g, p.base? g = some (.dispatcher s) := by
  cases code with
  | ask a k => cases a <;> cases hu
  | redirect m body k =>
    rw [request] at hu
    split at hu <;> cases hu
  | initClass className k => exact absurd hu (begin_ne_dispatcher _ _ _ _)
  | callBase g c k =>
    rw [request] at hu
    split at hu
    · rename_i base hbase
      cases hu
      exact ⟨g, hbase⟩
    · cases hu
  | _ => cases hu

/-- **A thread comes to a dispatcher through the entry of a method**; or else a
dispatcher is below the layers of some slot. -/
theorem step_to_dispatcher (h : t.step n p = some (e, u, q)) {s : Nat} {c : Call}
    (hu : u.now = .enter (.dispatcher s) c) :
    (∃ m c' x, t.now = .fetch m c' ∧ p.method? m = some x ∧ x.entry = .dispatcher s) ∨
      (∃ v ∈ t.visits, v.base = .dispatcher s) ∨ ∃ g, p.base? g = some (.dispatcher s) := by
  obtain ⟨now, stack⟩ := t
  cases now with
  | code code place =>
    have hnow : (request stack code place p).1 = u := congrArg (fun x => x.2.1) (Option.some.inj h)
    exact .inr (.inr (request_to_dispatcher (hnow ▸ hu)))
  | call m c =>
    rw [step] at h
    split at h
    · cases h
      cases hu
    · rename_i info _
      have hnow : (begin info.className (.call m c) stack p).1 = u :=
        congrArg (fun x => x.2.1) (Option.some.inj h)
      exact absurd (hnow ▸ hu) (begin_ne_dispatcher _ _ _ _)
  | fetch m c =>
    rw [step] at h
    split at h
    · cases h
      cases hu
    · rename_i x hx
      cases h
      exact .inl ⟨m, c, x, rfl, hx, (Now.enter.inj hu).1⟩
  | enter entry c =>
    cases entry with
    | body b =>
      cases h
      cases hu
    | dispatcher s =>
      rw [step] at h
      split at h
      · cases h
      · cases h
        cases hu
  | walk v args =>
    obtain ⟨since, m, base, this, _ | ⟨l, rest⟩⟩ := v
    · cases h
      exact .inr (.inl ⟨_, List.mem_cons_self, (Now.enter.inj hu).1⟩)
    · cases h
      cases hu
  | drop hs gone k place =>
    cases hs with
    | nil =>
      cases h
      cases hu
    | cons g hs =>
      rw [step] at h
      split at h <;> cases h <;> cases hu
  | done r =>
    rcases stack with _ | ⟨⟨k, place⟩ | ⟨className, purpose⟩, stack⟩
    · cases h
    · cases h
      cases hu
    · cases r <;> cases h <;> exact absurd hu (next_ne_enter _ _ _ _)

end Thread

/-! ## Walks -/

/-- The layers that a call has reached, in order. -/
def visitedBy (call : Nat) (log : List (Sight ν)) : List (Layer ν) :=
  log.filterMap fun
    | .visited c l => if c = call then some l else none
    | _ => none

/-- **What holds of the calls in dispatchers**, `vs` being those that have
something yet to reach: each walks down what it found. -/
structure Walks (log : List (Sight ν)) (vs : List (Visit ν)) : Prop where
  apart : (vs.map (·.since)).Nodup
  ahead : ∀ v ∈ vs, ∃ chain, log[v.since]? = some (.entered v.method v.base chain) ∧
    visitedBy v.since log ++ v.below = chain
  walked : ∀ c m base chain, log[c]? = some (.entered m base chain) → visitedBy c log <+: chain
  whole : ∀ c e, .reached c e ∈ log → ∃ m chain, log[c]? = some (.entered m e chain) ∧
    visitedBy c log = chain
  known : ∀ c l, .visited c l ∈ log → ∃ m base chain, log[c]? = some (.entered m base chain)

namespace Walks

variable {log : List (Sight ν)} {vs ws others : List (Visit ν)}

theorem visitedBy_append (c : Nat) (log log' : List (Sight ν)) :
    visitedBy c (log ++ log') = visitedBy c log ++ visitedBy c log' :=
  List.filterMap_append

/-- What was seen earlier is where it was. -/
theorem getElem?_concat {log : List (Sight ν)} {c : Nat} {e e' : Sight ν}
    (h : log[c]? = some e) : (log ++ [e'])[c]? = some e := by
  rw [List.getElem?_append_left (List.getElem?_eq_some_iff.mp h).1, h]

theorem getElem?_of_concat {log : List (Sight ν)} {c : Nat} {e e' : Sight ν}
    (h : (log ++ [e'])[c]? = some e) : log[c]? = some e ∨ c = log.length ∧ e = e' := by
  rcases Nat.lt_trichotomy c log.length with hlt | rfl | hgt
  · rw [List.getElem?_append_left hlt] at h
    exact .inl h
  · rw [List.getElem?_concat_length] at h
    exact .inr ⟨rfl, (Option.some.inj h).symm⟩
  · rw [List.getElem?_eq_none (by rw [List.length_append]; exact hgt)] at h
    cases h

theorem perm (h : Walks log vs) (hp : ws.Perm vs) : Walks log ws where
  apart := (hp.map _).nodup_iff.mpr h.apart
  ahead v hv := h.ahead v (hp.mem_iff.mp hv)
  walked := h.walked
  whole := h.whole
  known := h.known

theorem nil : Walks ([] : List (Sight ν)) [] where
  apart := List.nodup_nil
  ahead _ hv := absurd hv List.not_mem_nil
  walked _ _ _ _ h := by cases h
  whole _ _ h := absurd h List.not_mem_nil
  known _ _ h := absurd h List.not_mem_nil

theorem visitedBy_of_ne {c : Nat} {e : Sight ν} (he : ∀ l, e ≠ .visited c l) :
    visitedBy c (log ++ [e]) = visitedBy c log := by
  have hnone : visitedBy c [e] = [] := by
    cases e with
    | visited c' l =>
      have hne : c' ≠ c := fun h => he l (h ▸ rfl)
      exact List.filterMap_cons_none (if_neg hne)
    | _ => rfl
  rw [visitedBy_append, hnone, List.append_nil]

theorem visitedBy_visited (c : Nat) (l : Layer ν) (log : List (Sight ν)) :
    visitedBy c (log ++ [.visited c l]) = visitedBy c log ++ [l] := by
  rw [visitedBy_append]
  congr 1
  exact List.filterMap_cons_some (if_pos rfl)

/-- Who has come to a dispatcher and is on the way through it has walked there
what the log says, and has the rest ahead. -/
theorem chain_eq (h : Walks log vs) {v : Visit ν} (hv : v ∈ vs) {m : MethodId} {base : Entry ν}
    {chain : List (Layer ν)} (hlog : log[v.since]? = some (.entered m base chain)) :
    m = v.method ∧ base = v.base ∧ visitedBy v.since log ++ v.below = chain := by
  obtain ⟨chain', hlog', hchain⟩ := h.ahead v hv
  rw [hlog] at hlog'
  cases hlog'
  exact ⟨rfl, rfl, hchain⟩

theorem visitedBy_eq_nil (h : Walks log vs) : visitedBy log.length log = [] := by
  refine List.filterMap_eq_nil_iff.mpr fun e he => ?_
  cases e with
  | visited c l =>
    obtain ⟨_, _, _, hlog⟩ := h.known c l he
    exact if_neg (Nat.ne_of_lt (List.getElem?_eq_some_iff.mp hlog).1)
  | _ => rfl

/-- **One more step**: it is enough to know of the calls that go on. -/
theorem concat (h : Walks log vs) {e : Sight ν} (apart : (ws.map (·.since)).Nodup)
    (ahead : ∀ v ∈ ws, ∃ chain, (log ++ [e])[v.since]? = some (.entered v.method v.base chain) ∧
      visitedBy v.since (log ++ [e]) ++ v.below = chain)
    (visited : ∀ c l, e = .visited c l → (∃ v ∈ ws, v.since = c) ∧ ∀ b, .reached c b ∉ log)
    (reached : ∀ c b, e = .reached c b → ∃ m chain, log[c]? = some (.entered m b chain) ∧
      visitedBy c log = chain) : Walks (log ++ [e]) ws := by
  constructor
  case apart => exact apart
  case ahead => exact ahead
  case walked =>
    intro c m base chain hlog
    by_cases he : ∃ l, e = .visited c l
    · obtain ⟨l, rfl⟩ := he
      obtain ⟨⟨v, hv, rfl⟩, -⟩ := visited c l rfl
      obtain ⟨chain', hlog', hchain⟩ := ahead v hv
      rw [hlog] at hlog'
      cases hlog'
      exact ⟨v.below, hchain⟩
    · rw [visitedBy_of_ne fun l heq => he ⟨l, heq⟩]
      rcases getElem?_of_concat hlog with hlog | ⟨rfl, -⟩
      · exact h.walked c m base chain hlog
      · rw [h.visitedBy_eq_nil]
        exact List.nil_prefix
  case whole =>
    intro c b hb
    rcases List.mem_append.mp hb with hb | hb
    · obtain ⟨m, chain, hlog, hchain⟩ := h.whole c b hb
      refine ⟨m, chain, getElem?_concat hlog, ?_⟩
      rw [visitedBy_of_ne fun l heq => (visited c l heq).2 b hb]
      exact hchain
    · have he := (List.mem_singleton.mp hb).symm
      obtain ⟨m, chain, hlog, hchain⟩ := reached c b he
      refine ⟨m, chain, getElem?_concat hlog, ?_⟩
      rw [visitedBy_of_ne fun l heq => by rw [he] at heq; cases heq]
      exact hchain
  case known =>
    intro c l hl
    rcases List.mem_append.mp hl with hl | hl
    · obtain ⟨m, base, chain, hlog⟩ := h.known c l hl
      exact ⟨m, base, chain, getElem?_concat hlog⟩
    · obtain ⟨⟨v, hv, rfl⟩, -⟩ := visited c l (List.mem_singleton.mp hl).symm
      obtain ⟨chain, hlog, -⟩ := ahead v hv
      exact ⟨v.method, v.base, chain, hlog⟩

/-- A step that cannot be seen; calls may have ended. -/
theorem quiet (h : Walks log vs) (hws : ws.Sublist vs) : Walks (log ++ [.quiet]) ws := by
  refine h.concat (h.apart.sublist (hws.map _)) (fun v hv => ?_) nofun nofun
  obtain ⟨chain, hlog, hchain⟩ := h.ahead v (hws.subset hv)
  exact ⟨chain, getElem?_concat hlog, by rw [visitedBy_of_ne (e := .quiet) nofun]; exact hchain⟩

/-- A call comes to a dispatcher. -/
theorem enter (h : Walks log vs) (m : MethodId) (base : Entry ν) (this : Option Value)
    (chain : List (Layer ν)) :
    Walks (log ++ [.entered m base chain]) (⟨log.length, m, base, this, chain⟩ :: vs) := by
  refine h.concat (List.nodup_cons.mpr ⟨fun hmem => ?_, h.apart⟩) (fun v hv => ?_) nofun nofun
  · obtain ⟨v, hv, heq⟩ := List.mem_map.mp hmem
    obtain ⟨_, hlog, -⟩ := h.ahead v hv
    exact absurd heq (Nat.ne_of_lt (List.getElem?_eq_some_iff.mp hlog).1)
  · rw [visitedBy_of_ne (e := .entered m base chain) nofun]
    rcases List.mem_cons.mp hv with rfl | hv
    · exact ⟨chain, List.getElem?_concat_length .., by rw [h.visitedBy_eq_nil]; rfl⟩
    · obtain ⟨chain', hlog, hchain⟩ := h.ahead v hv
      exact ⟨chain', getElem?_concat hlog, hchain⟩

/-- What is true of the calls but one stays true when that one takes a step. -/
theorem ahead_others {v : Visit ν} (h : Walks log (v :: others)) {e : Sight ν}
    (he : ∀ c, c ≠ v.since → ∀ l, e ≠ .visited c l) : ∀ w ∈ others, ∃ chain,
      (log ++ [e])[w.since]? = some (.entered w.method w.base chain) ∧
        visitedBy w.since (log ++ [e]) ++ w.below = chain := by
  intro w hw
  obtain ⟨chain, hlog, hchain⟩ := h.ahead w (List.mem_cons_of_mem _ hw)
  have hne : w.since ≠ v.since := by
    intro heq
    exact (List.nodup_cons.mp h.apart).1 (List.mem_map.mpr ⟨w, hw, heq⟩)
  exact ⟨chain, getElem?_concat hlog, by rw [visitedBy_of_ne (he _ hne)]; exact hchain⟩

/-- A call goes on to the next layer. -/
theorem visit {v : Visit ν} {l : Layer ν} {rest : List (Layer ν)}
    (h : Walks log (v :: others)) (hbelow : v.below = l :: rest) :
    Walks (log ++ [.visited v.since l]) ({ v with below := rest } :: others) := by
  obtain ⟨chain, hlog, hchain⟩ := h.ahead v List.mem_cons_self
  rw [hbelow] at hchain
  refine h.concat h.apart (fun w hw => ?_) (fun c l' heq => ?_) nofun
  · rcases List.mem_cons.mp hw with rfl | hw
    · refine ⟨chain, getElem?_concat hlog, ?_⟩
      rw [visitedBy_visited, List.append_assoc]
      exact hchain
    · exact h.ahead_others (fun c hc l' heq => hc (Sight.visited.inj heq).1.symm) w hw
  · obtain ⟨rfl, -⟩ := Sight.visited.inj heq
    refine ⟨⟨_, List.mem_cons_self, rfl⟩, fun b hb => ?_⟩
    -- it has not come to what is below the layers, for it has a layer ahead
    obtain ⟨m, chain', hlog', hwhole⟩ := h.whole _ b hb
    obtain ⟨-, -, hchain'⟩ := h.chain_eq List.mem_cons_self hlog'
    rw [hbelow, hwhole] at hchain'
    exact List.cons_ne_nil _ _ (List.append_right_eq_self.mp hchain')

/-- A call comes to what is below all layers. -/
theorem reach {v : Visit ν} (h : Walks log (v :: others)) (hbelow : v.below = []) :
    Walks (log ++ [.reached v.since v.base]) others := by
  refine h.concat (List.nodup_cons.mp h.apart).2 (h.ahead_others fun _ _ _ => nofun) nofun
    (fun c b heq => ?_)
  cases heq
  obtain ⟨chain, hlog, hchain⟩ := h.ahead v List.mem_cons_self
  rw [hbelow, List.append_nil] at hchain
  exact ⟨_, chain, hlog, hchain⟩

end Walks

/-! ## Turns -/

namespace Scene

/-- **What a turn can be**: a step of the thread whose turn it is, or nothing. -/
theorem turn_cases (x : Scene ν) (i : Nat) :
    ((∀ t, x.threads[i]? = some t → t.step x.log.length x.host = none) ∧
      x.turn i = { x with log := x.log ++ [.quiet] }) ∨
    ∃ t e u q, x.threads[i]? = some t ∧ t.step x.log.length x.host = some (e, u, q) ∧
      x.turn i = { host := q, threads := x.threads.set i u, log := x.log ++ [e] } := by
  rw [turn]
  cases ht : x.threads[i]? with
  | none => exact .inl ⟨fun t ht => absurd ht (Option.some_ne_none t).symm, rfl⟩
  | some t =>
    dsimp only
    cases hstep : t.step x.log.length x.host with
    | none =>
      refine .inl ⟨fun t' ht' => ?_, rfl⟩
      cases ht'
      exact hstep
    | some r =>
      obtain ⟨e, u, q⟩ := r
      exact .inr ⟨t, e, u, q, rfl, hstep, rfl⟩

/-- The calls of one thread and those of the others. -/
theorem visits_set {threads : List (Thread ν)} {i : Nat} {t : Thread ν}
    (h : threads[i]? = some t) : ∃ others,
      (threads.flatMap Thread.visits).Perm (t.visits ++ others) ∧
        ∀ u, ((threads.set i u).flatMap Thread.visits).Perm (u.visits ++ others) := by
  induction threads generalizing i with
  | nil => cases h
  | cons a threads ih =>
    cases i with
    | zero =>
      cases h
      exact ⟨threads.flatMap Thread.visits, .refl _, fun u => .refl _⟩
    | succ i =>
      obtain ⟨others, hbefore, hafter⟩ := ih h
      refine ⟨a.visits ++ others, ?_, fun u => ?_⟩
      · exact (hbefore.append_left a.visits).trans (List.perm_append_comm_assoc _ _ _)
      · exact ((hafter u).append_left a.visits).trans (List.perm_append_comm_assoc _ _ _)

/-- **Whoever takes a turn, all calls go on walking down what they found.** -/
theorem walks_turn {x : Scene ν} (h : Walks x.log x.visits) (i : Nat) :
    Walks (x.turn i).log (x.turn i).visits := by
  rcases x.turn_cases i with ⟨-, heq⟩ | ⟨t, e, u, q, ht, hstep, heq⟩
  · rw [heq]
    exact h.quiet (.refl _)
  · obtain ⟨others, hbefore, hafter⟩ := visits_set ht
    rw [heq]
    refine Walks.perm ?_ (hafter u)
    have hall := h.perm hbefore.symm
    cases Thread.step_moves hstep with
    | quiet fewer => exact hall.quiet (fewer.append_right others)
    | enter now found more =>
      rw [more]
      exact hall.enter ..
    | visit before next after =>
      rw [before] at hall
      rw [after]
      exact hall.visit next
    | reach before last after =>
      rw [before] at hall
      rw [after]
      exact hall.reach last

/-- **Calls walk down what they found**, whatever else happens. -/
theorem walks_moment (p : Host ν) (codes : List (Program ν .plain)) (turns : Nat → Nat) (k : Nat) :
    Walks (moment p codes turns k).log (moment p codes turns k).visits := by
  induction k with
  | zero =>
    have hnone : (moment p codes turns 0).visits = [] := by
      refine List.flatMap_eq_nil_iff.mpr fun t ht => ?_
      obtain ⟨code, -, rfl⟩ := List.mem_map.mp ht
      rfl
    rw [hnone]
    exact .nil
  | succ k ih => exact walks_turn ih (turns k)

end Scene

end Interpose
