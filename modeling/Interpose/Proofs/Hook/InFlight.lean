/-
Interpose.Proofs.Hook.InFlight — calls that go on while chains are edited.

A call walks down what it found at its dispatcher (`walks_moment`). What it
finds is the chain of its method: it reads the method's entry and then, in
the next step of its thread, the slot, and in between anything may happen.
As long as the method stays hooked the slot has its chain, and if it does
not, then the slot keeps the last chain that there was (`Finds`). In either
case there is a moment between the two steps at which the chain was the one
that is walked, and so no edit that came before the call is missed.

What is below the layers is the entry that the method had when it was hooked.
It is the same for every call until the last layer is gone.

Main statement: `calls_isolated`.
-/
import Interpose.Proofs.Hook.Edits
import Interpose.Proofs.Hook.Reference
import Interpose.Proofs.Hook.Visits

namespace Interpose

variable {ν : Type}

namespace Scene

/-! ## Slots as time passes -/

theorem edit_turn (x : Scene ν) (i : Nat) : x.host.Edit (x.turn i).host := by
  rcases x.turn_cases i with ⟨-, heq⟩ | ⟨t, e, u, q, -, hstep, heq⟩
  · rw [heq]
    exact .refl _
  · rw [heq]
    exact Thread.step_edit hstep

/-- A method was hooked in step `o`, and stays hooked through the same slot up
to step `f`; `base` is what it did before. -/
structure Captured (x : Nat → Scene ν) (m : MethodId) (base : Entry ν) (s o f : Nat) : Prop where
  before : o < f
  free : (x o).host.table.slot? m = none
  original : ((x o).host.method? m).map (·.entry) = some base
  hooked : ∀ g, o < g → g ≤ f → (x g).host.table.slot? m = some s

/-- The slot `s` was that of a method in step `f`. In step `k` it still is; or
the last layer was taken off in a step in between, and the slot holds the
chain of before. -/
def Finds (x : Nat → Scene ν) (m : MethodId) (s f k : Nat) : Prop :=
  ∃ slot, (x k).host.slots[s]? = some slot ∧ slot.method = m ∧
    ((x k).host.table.slot? m = some s ∨
      (x k).host.table.slot? m ≠ some s ∧ ∃ j, f ≤ j ∧ j < k ∧
        (x j).host.table.slot? m = some s ∧ (x (j + 1)).host.table.slot? m ≠ some s ∧
        (x j).host.layers m = slot.layers)

/-- The chain of a hooked method is what its slot holds. -/
theorem layers_of_slot {p : Host ν} {m : MethodId} {s : Nat} {slot : Slot ν}
    (hs : p.table.slot? m = some s) (hslot : p.slots[s]? = some slot) :
    p.layers m = slot.layers := by
  rw [Host.layers, Host.slot?, hs, Option.bind_some, hslot]
  rfl

section Moments

variable {p : Host ν} {codes : List (Program ν .plain)} {turns : Nat → Nat}

/-- Some ledger is kept at any time. -/
theorem keeps_moment (hp : p.Untouched) (codes : List (Program ν .plain)) (turns : Nat → Nat)
    (k : Nat) : ∃ L elsewhere, (moment p codes turns k).host.Keeps L elsewhere := by
  induction k with
  | zero => exact ⟨_, _, hp.keeps⟩
  | succ k ih =>
    obtain ⟨L, elsewhere, hkept⟩ := ih
    exact hkept.edit (edit_turn _ (turns k))

theorem onward_moment (hp : p.Untouched) (codes : List (Program ν .plain)) (turns : Nat → Nat)
    (k : Nat) : Host.Onward (moment p codes turns k).host (moment p codes turns (k + 1)).host := by
  obtain ⟨L, elsewhere, hkept⟩ := keeps_moment hp codes turns k
  exact hkept.onward (edit_turn _ (turns k))

/-- **Each method that is hooked was hooked at some time**, and has been since. -/
theorem captured_moment (hp : p.Untouched) (codes : List (Program ν .plain)) (turns : Nat → Nat)
    (k : Nat) {m : MethodId} {s : Nat}
    (hs : (moment p codes turns k).host.table.slot? m = some s) :
    ∃ slot o, (moment p codes turns k).host.slots[s]? = some slot ∧ slot.method = m ∧
      Captured (moment p codes turns) m slot.base s o k := by
  induction k with
  | zero =>
    have htable : (moment p codes turns 0).host.table = {} := hp.table
    rw [htable] at hs
    cases hs
  | succ k ih =>
    have hon := onward_moment hp codes turns k
    have hnext : ∀ {o}, (∀ g, o < g → g ≤ k → (moment p codes turns g).host.table.slot? m = some s) →
        ∀ g, o < g → g ≤ k + 1 → (moment p codes turns g).host.table.slot? m = some s := by
      intro o hhooked g ho hg
      rcases Nat.lt_or_eq_of_le hg with hlt | rfl
      · exact hhooked g ho (Nat.le_of_lt_succ hlt)
      · exact hs
    rcases hon.opened m s hs with hold | ⟨hfree, -, slot, hslot, hmethod, hentry⟩
    · obtain ⟨slot, o, hslot, hmethod, hcap⟩ := ih hold
      obtain ⟨slot', hslot', hmethod', hbase', -⟩ := hon.kept s slot hslot
      refine ⟨slot', o, hslot', hmethod'.trans hmethod, ?_⟩
      exact ⟨Nat.lt_succ_of_lt hcap.before, hcap.free, hbase' ▸ hcap.original, hnext hcap.hooked⟩
    · refine ⟨slot, k, hslot, hmethod, Nat.lt_succ_self k, hfree, hentry, ?_⟩
      exact hnext fun g hg hle => absurd hg (Nat.not_lt_of_le hle)

/-- A slot stays that of its method, above what it was above. -/
theorem slot_later (hp : p.Untouched) {f k : Nat} (hfk : f ≤ k) {s : Nat} {slot : Slot ν}
    (hslot : (moment p codes turns f).host.slots[s]? = some slot) :
    ∃ slot', (moment p codes turns k).host.slots[s]? = some slot' ∧
      slot'.method = slot.method ∧ slot'.base = slot.base := by
  induction hfk with
  | refl => exact ⟨slot, hslot, rfl, rfl⟩
  | @step k _ ih =>
    obtain ⟨slot₁, hslot₁, hmethod₁, hbase₁⟩ := ih
    obtain ⟨slot₂, hslot₂, hmethod₂, hbase₂, -⟩ := (onward_moment hp codes turns k).kept s slot₁ hslot₁
    exact ⟨slot₂, hslot₂, hmethod₂.trans hmethod₁, hbase₂.trans hbase₁⟩

/-- **The chain of before stays in a slot that is closed.** -/
theorem finds_succ (hp : p.Untouched) {m : MethodId} {s f k : Nat} (hfk : f ≤ k)
    (h : Finds (moment p codes turns) m s f k) : Finds (moment p codes turns) m s f (k + 1) := by
  obtain ⟨slot, hslot, rfl, hcases⟩ := h
  have hon := onward_moment hp codes turns k
  obtain ⟨slot', hslot', hmethod', -, hlayers⟩ := hon.kept s slot hslot
  refine ⟨slot', hslot', hmethod', ?_⟩
  by_cases hopen : (moment p codes turns (k + 1)).host.table.slot? slot.method = some s
  · exact .inl hopen
  have hsame : slot'.layers = slot.layers := hlayers.resolve_right fun h => hopen h.2
  refine .inr ⟨hopen, ?_⟩
  rcases hcases with hs | ⟨-, j, hfj, hjk, hsj, hclosed, hchain⟩
  · exact ⟨k, hfk, Nat.lt_succ_self k, hs, hopen, (layers_of_slot hs hslot).trans hsame.symm⟩
  · exact ⟨j, hfj, Nat.lt_succ_of_lt hjk, hsj, hclosed, hchain.trans hsame.symm⟩

/-! ## Calls that come -/

/-- A thread read the entry of a method in step `f`, and has not had a turn
since, up to step `k`. -/
structure Fetches (x : Nat → Scene ν) (turns : Nat → Nat) (i : Nat) (m : MethodId)
    (f k : Nat) : Prop where
  before : f < k
  turn : turns f = i
  waits : ∀ g, f < g → g < k → turns g ≠ i
  fetches : ∃ t c, (x f).threads[i]? = some t ∧ t.now = .fetch m c

theorem Fetches.succ {x : Nat → Scene ν} {i : Nat} {m : MethodId} {f k : Nat}
    (h : Fetches x turns i m f k) (hk : turns k ≠ i) : Fetches x turns i m f (k + 1) where
  before := Nat.lt_succ_of_lt h.before
  turn := h.turn
  waits g hf hg := by
    rcases Nat.lt_or_eq_of_le (Nat.le_of_lt_succ hg) with hlt | rfl
    · exact h.waits g hf hlt
    · exact hk
  fetches := h.fetches

/-- Thread `i` has read the dispatcher of slot `s` off a method that was hooked,
and will find its slot. -/
def Heads (x : Nat → Scene ν) (turns : Nat → Nat) (i s k : Nat) : Prop :=
  ∃ m f, Fetches x turns i m f k ∧ (x f).host.table.slot? m = some s ∧ Finds x m s f k

/-- Whoever is about to enter a dispatcher has read it off a method. -/
def Coming (x : Nat → Scene ν) (turns : Nat → Nat) (k : Nat) : Prop :=
  ∀ i t s c, (x k).threads[i]? = some t → t.now = .enter (.dispatcher s) c → Heads x turns i s k

/-- A thread that has not had its turn still is where it was. -/
theorem Heads.succ (hp : p.Untouched) {i s k : Nat} (h : Heads (moment p codes turns) turns i s k)
    (hturn : turns k ≠ i) : Heads (moment p codes turns) turns i s (k + 1) := by
  obtain ⟨m, f, hfetches, hs, hfinds⟩ := h
  exact ⟨m, f, hfetches.succ hturn, hs, finds_succ hp (Nat.le_of_lt hfetches.before) hfinds⟩

/-- Whoever is about to enter a dispatcher can take a step, for it finds the slot. -/
theorem Heads.step_ne_none {i s k n : Nat} {t : Thread ν} {c : Call}
    (h : Heads (moment p codes turns) turns i s k) (hnow : t.now = .enter (.dispatcher s) c) :
    t.step n (moment p codes turns k).host ≠ none := by
  obtain ⟨m, f, -, -, slot, hslot, -⟩ := h
  obtain ⟨now, stack⟩ := t
  cases hnow
  rw [Thread.step, hslot]
  exact Option.some_ne_none _

/-- Where a call comes from that came to a dispatcher in step `c`: its thread
read the entry of the method in step `f`, and what it found in the slot is the
chain that the method had in step `j`. -/
structure Entrance (x : Nat → Scene ν) (turns : Nat → Nat) (c : Nat) (m : MethodId)
    (base : Entry ν) (chain : List (Layer ν)) (s o f j : Nat) : Prop where
  fetched : Fetches x turns (turns c) m f c
  found : (x c).host.slots[s]? = some { method := m, base, layers := chain }
  /-- What is below the layers is what the method did before it was hooked. -/
  captured : Captured x m base s o f
  chain : (x j).host.layers m = chain
  /-- No edit that came before the call is missed. -/
  sees : f ≤ j
  /-- It is the chain of the moment, unless the last layer was taken off while
  the call came. -/
  latest : j = c ∨
    j < c ∧ (x j).host.table.slot? m = some s ∧ (x (j + 1)).host.table.slot? m ≠ some s

/-- What a method did before it was hooked is a body. -/
theorem Entrance.body (hp : p.Untouched) {c : Nat} {m : MethodId} {base : Entry ν}
    {chain : List (Layer ν)} {s o f j : Nat}
    (h : Entrance (moment p codes turns) turns c m base chain s o f j) : ∃ b, base = .body b := by
  obtain ⟨L, elsewhere, hkept⟩ := keeps_moment hp codes turns o
  obtain ⟨y, hy, rfl⟩ := Option.map_eq_some_iff.mp h.captured.original
  obtain ⟨b, -, hb⟩ := hkept.entry_of_unhooked hy h.captured.free
  exact ⟨b, hb⟩

/-- All calls that came to a dispatcher so far came as they should. -/
def Entered (x : Nat → Scene ν) (turns : Nat → Nat) (k : Nat) : Prop :=
  ∀ c m base chain, (x k).log[c]? = some (.entered m base chain) →
    ∃ s o f j, Entrance x turns c m base chain s o f j

/-- Nothing but a body is ever below layers. -/
theorem base_ne_dispatcher (hp : p.Untouched) {k : Nat}
    (hentered : Entered (moment p codes turns) turns k) :
    (∀ v ∈ (moment p codes turns k).visits, ∀ s, v.base ≠ .dispatcher s) ∧
      ∀ g s, (moment p codes turns k).host.base? g ≠ some (.dispatcher s) := by
  constructor
  · intro v hv s hbase
    obtain ⟨chain, hlog, -⟩ := (walks_moment p codes turns k).ahead v hv
    obtain ⟨_, _, _, _, hentrance⟩ := hentered _ _ _ _ hlog
    obtain ⟨b, hb⟩ := hentrance.body hp
    cases hbase.symm.trans hb
  · intro g s hbase
    obtain ⟨L, elsewhere, hkept⟩ := keeps_moment hp codes turns k
    obtain ⟨m, -, hm⟩ := Option.bind_eq_some_iff.mp hbase
    obtain ⟨slot, hslot, hslotbase⟩ := Option.map_eq_some_iff.mp hm
    obtain ⟨s', hs', hslot'⟩ := Option.bind_eq_some_iff.mp hslot
    obtain ⟨b, -, hb⟩ := hkept.slots m s' hs'
    rw [hb] at hslot'
    cases hslot'
    cases hslotbase

theorem slot_of_entryFor {slot : Option Nat} {elsewhere : Option (Body ν)} {b : Body ν} {s : Nat}
    (h : Host.entryFor slot elsewhere b = .dispatcher s) : slot = some s := by
  cases slot with
  | none => cases h
  | some s' =>
    cases elsewhere with
    | none =>
      cases h
      rfl
    | some b' => cases h

/-- Whoever has read a dispatcher as the entry of a method finds the slot. -/
theorem finds_of_entry (hp : p.Untouched) {k : Nat} {m : MethodId} {y : Method ν} {s : Nat}
    (hy : (moment p codes turns k).host.method? m = some y) (hentry : y.entry = .dispatcher s) :
    (moment p codes turns k).host.table.slot? m = some s ∧
      Finds (moment p codes turns) m s k k := by
  obtain ⟨L, elsewhere, hkept⟩ := keeps_moment hp codes turns k
  have hs : (moment p codes turns k).host.table.slot? m = some s := by
    have hentries := hkept.entries m
    rw [hy, Option.map_some, hentry] at hentries
    obtain ⟨b, -, hb⟩ := Option.map_eq_some_iff.mp hentries.symm
    exact slot_of_entryFor hb
  obtain ⟨b, -, hslot⟩ := hkept.slots m s hs
  exact ⟨hs, _, hslot, rfl, .inl hs⟩

/-- A step that brings a thread to a dispatcher. -/
theorem heads_of_step (hp : p.Untouched) {k n : Nat} {t u : Thread ν} {e : Sight ν} {q : Host ν}
    (hentered : Entered (moment p codes turns) turns k)
    (ht : (moment p codes turns k).threads[turns k]? = some t)
    (hstep : t.step n (moment p codes turns k).host = some (e, u, q)) {s : Nat} {c : Call}
    (hnow : u.now = .enter (.dispatcher s) c) :
    Heads (moment p codes turns) turns (turns k) s (k + 1) := by
  obtain ⟨hvisits, hbases⟩ := base_ne_dispatcher hp hentered
  rcases Thread.step_to_dispatcher hstep hnow with
    ⟨m, c', y, hfetch, hy, hentry⟩ | ⟨v, hv, hbase⟩ | ⟨g, hbase⟩
  · obtain ⟨hs, hfinds⟩ := finds_of_entry hp hy hentry
    have hwaits : ∀ g, k < g → g < k + 1 → turns g ≠ turns k :=
      fun g hg hlt => absurd (Nat.le_of_lt_succ hlt) (Nat.not_le_of_lt hg)
    exact ⟨m, k, ⟨Nat.lt_succ_self k, rfl, hwaits, t, c', ht, hfetch⟩, hs,
      finds_succ hp (Nat.le_refl k) hfinds⟩
  · have hmem : v ∈ (moment p codes turns k).visits :=
      List.mem_flatMap.mpr ⟨t, List.mem_of_getElem? ht, hv⟩
    exact absurd hbase (hvisits v hmem s)
  · exact absurd hbase (hbases g s)

theorem coming_succ (hp : p.Untouched) {k : Nat} (hcoming : Coming (moment p codes turns) turns k)
    (hentered : Entered (moment p codes turns) turns k) :
    Coming (moment p codes turns) turns (k + 1) := by
  intro i u s c hu hnow
  have hnext : moment p codes turns (k + 1) = (moment p codes turns k).turn (turns k) := rfl
  rcases (moment p codes turns k).turn_cases (turns k) with ⟨hnone, heq⟩ | ⟨t, e, u', q, ht, hstep, heq⟩
  · rw [hnext, heq] at hu
    have hheads := hcoming i u s c hu hnow
    exact hheads.succ hp fun hturn => hheads.step_ne_none hnow (hnone u (hturn ▸ hu))
  · rw [hnext, heq] at hu
    by_cases hturn : turns k = i
    · subst hturn
      rw [List.getElem?_set_self (List.getElem?_eq_some_iff.mp ht).1] at hu
      cases hu
      exact heads_of_step hp hentered ht hstep hnow
    · rw [List.getElem?_set_ne hturn] at hu
      exact (hcoming i u s c hu hnow).succ hp hturn

theorem entered_succ (hp : p.Untouched) {k : Nat}
    (hcoming : Coming (moment p codes turns) turns k)
    (hentered : Entered (moment p codes turns) turns k) :
    Entered (moment p codes turns) turns (k + 1) := by
  intro c m base chain hlog
  have hnext : moment p codes turns (k + 1) = (moment p codes turns k).turn (turns k) := rfl
  rcases (moment p codes turns k).turn_cases (turns k) with ⟨-, heq⟩ | ⟨t, e, u, q, ht, hstep, heq⟩
  · rw [hnext, heq] at hlog
    rcases Walks.getElem?_of_concat hlog with hold | ⟨-, hnew⟩
    · exact hentered c m base chain hold
    · cases hnew
  · rw [hnext, heq] at hlog
    rcases Walks.getElem?_of_concat hlog with hold | ⟨hc, rfl⟩
    · exact hentered c m base chain hold
    · rw [length_log] at hc
      subst hc
      cases Thread.step_moves hstep with
      | @enter s call slot now found more =>
        obtain ⟨m, f, hfetches, hs, slot', hslot', rfl, hcases⟩ := hcoming _ t s call ht now
        cases found.symm.trans hslot'
        obtain ⟨slot₀, o, hslot₀, -, hcap⟩ := captured_moment hp codes turns f hs
        obtain ⟨slot₁, hslot₁, -, hbase⟩ := slot_later hp (Nat.le_of_lt hfetches.before) hslot₀
        cases found.symm.trans hslot₁
        rw [← hbase] at hcap
        rcases hcases with hopen | ⟨-, j, hfj, hjc, hsj, hclosed, hchain⟩
        · exact ⟨s, o, f, c, hfetches, found, hcap, layers_of_slot hopen found,
            Nat.le_of_lt hfetches.before, .inl rfl⟩
        · exact ⟨s, o, f, j, hfetches, found, hcap, hchain, hfj, .inr ⟨hjc, hsj, hclosed⟩⟩

/-- **All calls come to dispatchers as they should.** -/
theorem entered_moment (hp : p.Untouched) (codes : List (Program ν .plain)) (turns : Nat → Nat)
    (k : Nat) : Coming (moment p codes turns) turns k ∧ Entered (moment p codes turns) turns k := by
  induction k with
  | zero =>
    refine ⟨fun i t s c ht hnow => ?_, fun c m base chain hlog => nomatch hlog⟩
    obtain ⟨code, -, rfl⟩ := List.mem_map.mp (List.mem_of_getElem? ht)
    cases hnow
  | succ k ih => exact ⟨coming_succ hp ih.1 ih.2, entered_succ hp ih.1 ih.2⟩

end Moments

/-! ## In flight -/

/-- Thread `i` has the turn and hands a call on: to the first of these layers,
whose code it runs then, or to what is below the layers if none is left. -/
def Hands (x : Scene ν) (i : Nat) (v : Visit ν) (args : List Value)
    (stack : List (Awaiting ν)) : List (Layer ν) → Prop
  | [] => (x.turn i).log = x.log ++ [.reached v.since v.base] ∧
      (x.turn i).threads[i]? = some ⟨.enter v.base { this := v.this, args }, stack⟩
  | l :: rest => (x.turn i).log = x.log ++ [.visited v.since l] ∧
      (x.turn i).threads[i]? = some ⟨.code (ρ := .layer) (l.hook.run {
        method := v.method, call := { this := v.this, args }, moduleId := l.moduleId
        depthBelow := rest.length }) { v with below := rest }, stack⟩

theorem hands_below {x : Scene ν} {i : Nat} {v : Visit ν} {args : List Value}
    {stack : List (Awaiting ν)} (h : x.threads[i]? = some ⟨.walk v args, stack⟩) :
    Hands x i v args stack v.below := by
  have hlt : i < x.threads.length := (List.getElem?_eq_some_iff.mp h).1
  obtain ⟨since, m, base, this, _ | ⟨l, rest⟩⟩ := v
  · rw [Hands, turn, h]
    exact ⟨rfl, List.getElem?_set_self hlt⟩
  · rw [Hands, turn, h]
    exact ⟨rfl, List.getElem?_set_self hlt⟩

/-- **What holds of every call in a dispatcher** after some number of steps. -/
structure Isolated (x : Nat → Scene ν) (turns : Nat → Nat) (k : Nat) : Prop where
  /-- A call finds the chain that its method has, be it edited or not; if the
  last layer is taken off while it comes, the chain of before. Below it is what
  the method did before it was hooked. -/
  entered : ∀ c m base chain, (x k).log[c]? = some (.entered m base chain) →
    ∃ s o f j, Entrance x turns c m base chain s o f j
  /-- It reaches the layers of this chain, in order, and no others. -/
  walked : ∀ c m base chain, (x k).log[c]? = some (.entered m base chain) →
    visitedBy c (x k).log <+: chain
  /-- Layers are reached by calls that have come to a dispatcher. -/
  known : ∀ c l, .visited c l ∈ (x k).log →
    ∃ m base chain, (x k).log[c]? = some (.entered m base chain)
  /-- What is below the layers is reached when all of them have been. -/
  whole : ∀ c e, .reached c e ∈ (x k).log →
    ∃ m chain, (x k).log[c]? = some (.entered m e chain) ∧ visitedBy c (x k).log = chain
  /-- A call that is handed on goes to the next layer of the chain it found,
  whether or not that is still there, and after the last one to what is below. -/
  next : ∀ i v args stack, (x k).threads[i]? = some ⟨.walk v args, stack⟩ →
    ∃ chain, (x k).log[v.since]? = some (.entered v.method v.base chain) ∧
      Hands (x k) i v args stack (chain.drop (visitedBy v.since (x k).log).length)

/-- **Calls in flight are isolated from edits**, whatever code the threads of a
process run and however they take turns. -/
theorem calls_isolated (p : Host ν) (hp : p.Untouched) (codes : List (Program ν .plain))
    (turns : Nat → Nat) (k : Nat) : Isolated (moment p codes turns) turns k := by
  have hwalks := walks_moment p codes turns k
  constructor
  case entered => exact (entered_moment hp codes turns k).2
  case walked => exact hwalks.walked
  case known => exact hwalks.known
  case whole => exact hwalks.whole
  case next =>
    intro i v args stack ht
    have hmem : v ∈ (moment p codes turns k).visits :=
      List.mem_flatMap.mpr ⟨_, List.mem_of_getElem? ht, List.mem_cons_self⟩
    obtain ⟨chain, hlog, hchain⟩ := hwalks.ahead v hmem
    refine ⟨chain, hlog, ?_⟩
    rw [← hchain, List.drop_left]
    exact hands_below ht

/-- A call goes through a layer that is taken off before it gets there, though
nothing is on the method any more. -/
theorem calls_isolated_unhooked :
    let caller : Program Unit .plain := .install ⟨1⟩ none (fun _ => .proceed [] .finish) 0 "a"
      fun _ => .invoke ⟨1⟩ {} .finish
    let remover : Program Unit .plain := .ask (.remove ⟨1⟩) fun _ => .finish (.ok .null)
    let turns (k : Nat) : Nat := if k = 5 then 1 else 0
    let x := moment Host.oneMethod [caller, remover] turns
    Host.oneMethod.Untouched ∧ Isolated x turns 9 ∧
      ((x 5).host.layers ⟨1⟩).map (·.handle) = [⟨1⟩] ∧ (x 6).host.layers ⟨1⟩ = [] ∧
      visitedBy 4 (x 6).log = [] ∧ (visitedBy 4 (x 9).log).map (·.handle) = [⟨1⟩] ∧
      ((x 9).log.filterMap fun | .reached c _ => some c | _ => none) = [4] := by
  intro caller remover turns x
  refine ⟨Host.oneMethod_untouched,
    calls_isolated _ Host.oneMethod_untouched [caller, remover] turns 9, ?_, ?_, ?_, ?_, ?_⟩
  · decide +kernel
  · exact List.isEmpty_iff.mp (by decide +kernel)
  · exact List.isEmpty_iff.mp (by decide +kernel)
  · decide +kernel
  · decide +kernel

end Scene

end Interpose
