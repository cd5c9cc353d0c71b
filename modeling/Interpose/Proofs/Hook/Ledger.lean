/-
Interpose.Proofs.Hook.Ledger — what a hook table ought to be.

A ledger is the plainest account there can be of a process with hooks: the
body each method was declared with, and a line for each layer that was
installed and not removed since. It has no slots, no dispatchers and
nothing to restore. `Ledger.call` says what calling a method comes to by
the ledger alone: the method's lines, highest priority first and earlier
ones first among equals, each on top of the next, and under all of them
the declared body.

* `Line.before` orders the lines of one method, and `Ledger.chain` is the
  method's lines in that order.
* `chain_install`, `chain_remove` and `chain_removeAll` say what the edits
  do to a chain. A chain is sorted afresh at each of them here, where the
  table sorts what it had; the order leaves no choice, so that both come
  out the same.
-/
import Interpose.Host.Run
import Interpose.Proofs.Sorting

namespace Interpose

/-! ## Lines -/

/-- What is to be seen of a layer: everything but its number and its time. -/
structure Face (ν : Type) where
  method : MethodId
  moduleId : String
  priority : Int32
  hook : Hook ν

/-- A layer that was installed. -/
structure Line (ν : Type) where
  handle : HookHandle
  method : MethodId
  moduleId : String
  priority : Int32
  hook : Hook ν
  /-- How many layers had been installed before it. -/
  time : Nat

namespace Line

variable {ν : Type}

def face (l : Line ν) : Face ν :=
  { method := l.method, moduleId := l.moduleId, priority := l.priority, hook := l.hook }

/-- Higher priorities first, and among equals the earlier one. -/
def before (a b : Line ν) : Bool :=
  b.priority < a.priority || (a.priority == b.priority && a.time ≤ b.time)

theorem before_iff {a b : Line ν} : a.before b = true ↔
    b.priority < a.priority ∨ (a.priority = b.priority ∧ a.time ≤ b.time) := by
  simp [before]

theorem before_trans (a b c : Line ν) (hab : a.before b = true) (hbc : b.before c = true) :
    a.before c = true := by
  rw [before_iff] at *
  rcases hab with hab | ⟨hab, tab⟩ <;> rcases hbc with hbc | ⟨hbc, tbc⟩
  · exact .inl (Int32.lt_trans hbc hab)
  · exact .inl (hbc ▸ hab)
  · exact .inl (hab ▸ hbc)
  · exact .inr ⟨hab.trans hbc, Nat.le_trans tab tbc⟩

theorem before_total (a b : Line ν) : (a.before b || b.before a) = true := by
  rw [Bool.or_eq_true, before_iff, before_iff]
  by_cases h : a.priority = b.priority
  · rcases Nat.le_total a.time b.time with ht | ht
    · exact .inl (.inr ⟨h, ht⟩)
    · exact .inr (.inr ⟨h.symm, ht⟩)
  · rcases Int32.lt_or_lt_of_ne h with hlt | hlt
    · exact .inr (.inl hlt)
    · exact .inl (.inl hlt)

/-- Lines that may stand either way are of one time. -/
theorem time_eq_of_before {a b : Line ν} (hab : a.before b = true) (hba : b.before a = true) :
    a.time = b.time := by
  rw [before_iff] at *
  rcases hab with hab | ⟨_, tab⟩ <;> rcases hba with hba | ⟨_, tba⟩
  · exact absurd (Int32.lt_trans hab hba) Int32.lt_irrefl
  · simp_all [Int32.lt_irrefl]
  · simp_all [Int32.lt_irrefl]
  · exact Nat.le_antisymm tab tba

end Line

/-! ## Ledgers -/

structure Ledger (ν : Type) where
  /-- The body of each method, in order of declaration. -/
  bodies : List (MethodId × Body ν) := []
  /-- The layers installed and not removed since, in order of install. -/
  lines : List (Line ν) := []
  /-- How many layers have been installed. -/
  installs : Nat := 0

namespace Ledger

variable {ν : Type}

/-- The body a method was declared with. -/
def body? (L : Ledger ν) (m : MethodId) : Option (Body ν) := L.bodies.lookup m

/-- The lines of a method, outermost first. -/
def chain (L : Ledger ν) (m : MethodId) : List (Line ν) :=
  (L.lines.filter (·.method = m)).mergeSort Line.before

def declare (L : Ledger ν) (m : MethodId) (b : Body ν) : Ledger ν :=
  { L with bodies := L.bodies ++ [(m, b)] }

/-- The line of the next layer. -/
def newLine (L : Ledger ν) (h : HookHandle) (m : MethodId) (hook : Hook ν) (priority : Int32)
    (moduleId : String) : Line ν :=
  { handle := h, method := m, moduleId, priority, hook, time := L.installs }

def install (L : Ledger ν) (h : HookHandle) (m : MethodId) (hook : Hook ν) (priority : Int32)
    (moduleId : String) : Ledger ν :=
  { L with
    lines := L.lines ++ [L.newLine h m hook priority moduleId]
    installs := L.installs + 1 }

def remove (L : Ledger ν) (h : HookHandle) : Ledger ν :=
  { L with lines := L.lines.filter (·.handle ≠ h) }

def removeAll (L : Ledger ν) (hs : List HookHandle) : Ledger ν :=
  { L with lines := L.lines.filter (·.handle ∉ hs) }

def removeModule (L : Ledger ν) (moduleId : String) : Ledger ν :=
  { L with lines := L.lines.filter (·.moduleId ≠ moduleId) }

/-! ## What a call comes to -/

/-- Lines on top of one another, and a body under all of them: each line is
run on the arguments that the one above it hands on. -/
def stack (enter : Host.Enter ν) (m : MethodId) (b : Body ν) (this : Option Value) :
    List (Line ν) → List Value → Host ν → Host.Ran ν Outcome
  | [], args, p => Host.exec enter (b { this, args }) () p
  | l :: rest, args, p =>
    Host.exec enter
      (l.hook.run {
        method := m, call := { this, args }, moduleId := l.moduleId, depthBelow := rest.length })
      (stack enter m b this rest) p

/-- What calling a method comes to. -/
def call (L : Ledger ν) (enter : Host.Enter ν) (m : MethodId) (c : Call) (p : Host ν) :
    Host.Ran ν Outcome :=
  match L.body? m with
  | none => some (.error { className := "NoSuchMethodError", message := m.text }, p)
  | some b => stack enter m b c.this (L.chain m) c.args p

/-! ## Times -/

/-- The lines stand in the order of their times, all of them past. -/
structure Timed (L : Ledger ν) : Prop where
  rising : L.lines.Pairwise fun a b => a.time < b.time
  past : ∀ l ∈ L.lines, l.time < L.installs

/-- A time tells its line. -/
theorem Timed.eq_of_time {L : Ledger ν} (h : L.Timed) {a b : Line ν} (ha : a ∈ L.lines)
    (hb : b ∈ L.lines) (ht : a.time = b.time) : a = b := by
  exact eq_of_pairwise_ne (h.rising.imp Nat.ne_of_lt) ha hb ht

theorem Timed.install {L : Ledger ν} (t : L.Timed) (h : HookHandle) (m : MethodId)
    (hook : Hook ν) (priority : Int32) (moduleId : String) :
    (L.install h m hook priority moduleId).Timed where
  rising := by
    refine List.pairwise_append.mpr ⟨t.rising, List.pairwise_singleton _ _, ?_⟩
    intro a ha b hb
    rw [List.mem_singleton.mp hb]
    exact t.past a ha
  past := by
    intro l hl
    rcases List.mem_append.mp hl with hl | hl
    · exact Nat.lt_succ_of_lt (t.past l hl)
    · rw [List.mem_singleton.mp hl]
      exact Nat.lt_succ_self _

/-- Striking lines out keeps the others in order. -/
theorem Timed.filter {L : Ledger ν} (t : L.Timed) (keep : Line ν → Bool) :
    Timed { L with lines := L.lines.filter keep } where
  rising := t.rising.filter keep
  past := fun l hl => t.past l (List.mem_filter.mp hl).1

/-! ## Chains and bodies -/

/-- Only the first declaration of a number counts. -/
theorem body?_declare (L : Ledger ν) (m a : MethodId) (b : Body ν) :
    (L.declare m b).body? a = (L.body? a).or (if a = m then some b else none) := by
  rw [body?, declare, List.lookup_append, body?]
  congr 1
  by_cases ha : a = m
  · subst ha
    rw [List.lookup_cons_self, if_pos rfl]
  · rw [List.lookup_cons, beq_eq_false_iff_ne.mpr ha, if_neg ha]
    rfl

/-- No two lines of a ledger may change places. -/
theorem Timed.strict {L : Ledger ν} (t : L.Timed) : ∀ a ∈ L.lines, ∀ b ∈ L.lines,
    a.before b = true → b.before a = true → a = b :=
  fun _ ha _ hb hab hba => t.eq_of_time ha hb (Line.time_eq_of_before hab hba)

theorem mem_chain {L : Ledger ν} {m : MethodId} {l : Line ν} :
    l ∈ L.chain m ↔ l ∈ L.lines ∧ l.method = m := by
  rw [chain, List.mem_mergeSort, List.mem_filter, decide_eq_true_iff]

theorem chain_eq_nil_iff {L : Ledger ν} {m : MethodId} :
    L.chain m = [] ↔ ∀ l ∈ L.lines, l.method ≠ m := by
  constructor
  · intro h l hl hm
    have := mem_chain.mpr ⟨hl, hm⟩
    rw [h] at this
    exact List.not_mem_nil this
  · intro h
    apply List.eq_nil_iff_forall_not_mem.mpr
    intro l hl
    exact h l (mem_chain.mp hl).1 (mem_chain.mp hl).2

/-- Striking lines out of a ledger strikes them out of each chain. -/
theorem chain_filter (L : Ledger ν) (keep : Line ν → Bool) (m : MethodId) :
    chain { L with lines := L.lines.filter keep } m = (L.chain m).filter keep := by
  rw [chain, chain, filter_mergeSort keep Line.before_trans Line.before_total,
    List.filter_filter, List.filter_filter]
  simp only [Bool.and_comm]

theorem chain_remove (L : Ledger ν) (h : HookHandle) (m : MethodId) :
    (L.remove h).chain m = (L.chain m).filter (·.handle ≠ h) :=
  chain_filter L _ m

/-- A handle that no line has strikes nothing out. -/
theorem remove_of_forall_ne {L : Ledger ν} {h : HookHandle}
    (hne : ∀ l ∈ L.lines, l.handle ≠ h) : L.remove h = L := by
  have : L.lines.filter (·.handle ≠ h) = L.lines :=
    List.filter_eq_self.mpr fun l hl => decide_eq_true (hne l hl)
  rw [remove, this]

theorem chain_removeAll (L : Ledger ν) (hs : List HookHandle) (m : MethodId) :
    (L.removeAll hs).chain m = (L.chain m).filter (·.handle ∉ hs) :=
  chain_filter L _ m

theorem removeAll_nil (L : Ledger ν) : L.removeAll [] = L := by
  have : L.lines.filter (·.handle ∉ ([] : List HookHandle)) = L.lines :=
    List.filter_eq_self.mpr fun _ _ => by simp
  rw [removeAll, this]

theorem removeAll_cons (L : Ledger ν) (h : HookHandle) (hs : List HookHandle) :
    L.removeAll (h :: hs) = (L.remove h).removeAll hs := by
  simp only [removeAll, remove, List.filter_filter]
  congr 2
  funext l
  by_cases hh : l.handle = h <;> simp [hh]

/-- A new line goes into its method's chain, wherever the order has it. -/
theorem chain_install {L : Ledger ν} (t : L.Timed) (h : HookHandle) (m : MethodId)
    (hook : Hook ν) (priority : Int32) (moduleId : String) (a : MethodId) :
    (L.install h m hook priority moduleId).chain a
      = if a = m then
          (L.chain m ++ [L.newLine h m hook priority moduleId]).mergeSort Line.before
        else L.chain a := by
  by_cases ha : a = m
  · subst ha
    have hlines : (L.install h a hook priority moduleId).lines.filter (·.method = a)
        = L.lines.filter (·.method = a) ++ [L.newLine h a hook priority moduleId] := by
      rw [install, List.filter_append]
      congr 1
      simp [newLine]
    rw [if_pos rfl, chain, hlines]
    apply mergeSort_eq_of_perm Line.before_trans Line.before_total
    · intro b hb c hc
      rw [← hlines] at hb hc
      exact (t.install h a hook priority moduleId).strict b (List.mem_filter.mp hb).1
        c (List.mem_filter.mp hc).1
    · exact (List.mergeSort_perm _ _).symm.append_right _
  · have hlines : (L.install h m hook priority moduleId).lines.filter (·.method = a)
        = L.lines.filter (·.method = a) := by
      have : ¬ m = a := fun h => ha h.symm
      rw [install, List.filter_append]
      simp [newLine, this]
    rw [if_neg ha, chain, hlines, chain]

/-! ## Ledgers that look alike -/

/-- **Where the lines look alike, so do the chains**: two lines stand in the
same order in both, because times rise along both lists. -/
theorem chain_faces {L M : Ledger ν} (tL : L.Timed) (tM : M.Timed)
    (h : M.lines.map Line.face = L.lines.map Line.face) (m : MethodId) :
    (M.chain m).map Line.face = (L.chain m).map Line.face := by
  have hlen : M.lines.length = L.lines.length := by
    rw [← List.length_map Line.face, h, List.length_map]
  have hfst : (M.lines.zip L.lines).map Prod.fst = M.lines :=
    List.map_fst_zip (Nat.le_of_eq hlen)
  have hsnd : (M.lines.zip L.lines).map Prod.snd = L.lines :=
    List.map_snd_zip (Nat.le_of_eq hlen.symm)
  have hface := forall_mem_zip_of_map_eq h
  have tM' := tM.rising
  have tL' := tL.rising
  rw [← hfst, List.pairwise_map] at tM'
  rw [← hsnd, List.pairwise_map] at tL'
  have htime := le_iff_of_rising tM' tL'
  generalize M.lines.zip L.lines = pairs at hfst hsnd hface htime
  have hbefore : ∀ x ∈ pairs, ∀ y ∈ pairs, x.1.before y.1 = x.2.before y.2 := by
    intro x hx y hy
    have hxp : x.1.priority = x.2.priority := congrArg Face.priority (hface x hx)
    have hyp : y.1.priority = y.2.priority := congrArg Face.priority (hface y hy)
    rw [Line.before, Line.before, hxp, hyp, decide_eq_decide.mpr (htime x hx y hy)]
  have hmethod : pairs.filter (·.2.method = m) = pairs.filter (·.1.method = m) := by
    apply List.filter_congr
    intro x hx
    have : x.1.method = x.2.method := congrArg Face.method (hface x hx)
    rw [this]
  have hM : M.chain m
      = ((pairs.filter (·.1.method = m)).mergeSort fun x y => x.1.before y.1).map Prod.fst := by
    rw [List.map_mergeSort (s := Line.before) fun _ _ _ _ => rfl, chain, ← hfst, List.filter_map]
    rfl
  have hL : L.chain m
      = ((pairs.filter (·.1.method = m)).mergeSort fun x y => x.1.before y.1).map Prod.snd := by
    rw [List.map_mergeSort (s := Line.before) fun x hx y hy =>
      hbefore x (List.mem_filter.mp hx).1 y (List.mem_filter.mp hy).1, chain, ← hsnd,
      List.filter_map, ← hmethod]
    rfl
  rw [hM, hL, List.map_map, List.map_map]
  apply List.map_congr_left
  intro x hx
  exact hface x (List.mem_filter.mp (List.mem_mergeSort.mp hx)).1

end Ledger

end Interpose
