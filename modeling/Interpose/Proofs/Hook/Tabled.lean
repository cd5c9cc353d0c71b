/-
Interpose.Proofs.Hook.Tabled — what a hook table holds true by itself.

A ledger is kept by the hook table and the runtime together (`Keeps`): it
says what each method's entry is. What is said of chains and handles alone
needs no runtime. A slot belongs to one method, a chain is sorted, and a
handle is a number that was drawn: so it is in every table that came about
by its own operations (`Tabled.regular`), whatever the runtime under it did
or refused in the meantime.

`Gains ls p q` says that the table of `q` is that of `p` with the layers `ls`
more. An install that is answered with a handle gains one layer, one that is
refused gains none, and gains add up (`Gains.trans`), because no two layers
of a regular table may change places.

Main statements: `Tabled.regular`, `tabled_carried`, `Regular.install`,
`Gains.kept` and `Gains.own`.
-/
import Interpose.Proofs.Hook.Reference
import Interpose.Proofs.Hook.Running

namespace Interpose

variable {ν : Type}

/-! ## The order of layers -/

namespace Layer

/-- Layers are ordered as lines are whose times are the places in the order. -/
def toLine (l : Layer ν) : Line ν :=
  { handle := l.handle, method := l.method, moduleId := l.moduleId, priority := l.priority
    hook := l.hook, time := l.order }

theorem before_trans (a b c : Layer ν) (hab : a.before b = true) (hbc : b.before c = true) :
    a.before c = true :=
  Line.before_trans a.toLine b.toLine c.toLine hab hbc

theorem before_total (a b : Layer ν) : (a.before b || b.before a) = true :=
  Line.before_total a.toLine b.toLine

/-- Layers that may stand either way have one place in the order. -/
theorem order_eq_of_before {a b : Layer ν} (hab : a.before b = true) (hba : b.before a = true) :
    a.order = b.order :=
  Line.time_eq_of_before (a := a.toLine) (b := b.toLine) hab hba

end Layer

namespace Host

variable {p q r : Host ν}

/-! ## Regular tables -/

/-- The slot of each method is there and belongs to it. -/
def Slotted (p : Host ν) : Prop :=
  ∀ m s, p.table.slot? m = some s → ∃ slot, p.slots[s]? = some slot ∧ slot.method = m

/-- A hook table in which slots, chains and handles are in order. -/
structure Regular (p : Host ν) : Prop where
  slotted : p.Slotted
  sorted : ∀ m, (p.layers m).Pairwise fun a b => a.before b = true
  distinct : ∀ m, (p.layers m).Pairwise fun a b => a.order ≠ b.order
  /-- A layer's handle is its place in the order, and both have been drawn. -/
  drawn : ∀ m, ∀ l ∈ p.layers m, l.handle.raw = l.order ∧ l.order < p.table.nextHandle
  live : ∀ x ∈ p.table.live, x.1.raw < p.table.nextHandle

/-- Slots and their methods are all that chains depend on. -/
theorem layers_congr (hslots : q.slots = p.slots)
    (hslot? : ∀ m, q.table.slot? m = p.table.slot? m) (m : MethodId) :
    q.layers m = p.layers m := by
  simp only [layers, slot?, hslot?, hslots]

namespace Regular

/-- A slot belongs to one method only. -/
theorem slot_inj (h : p.Regular) {m a : MethodId} {s : Nat} (hm : p.table.slot? m = some s)
    (ha : p.table.slot? a = some s) : a = m := by
  obtain ⟨x, hx, rfl⟩ := h.slotted m s hm
  obtain ⟨y, hy, rfl⟩ := h.slotted a s ha
  rw [Option.some.inj (hx.symm.trans hy)]

/-- Handles may be used up, and the runtime may do as it likes. -/
theorem same (h : p.Regular) {i : Nat} (hslots : q.slots = p.slots)
    (htable : q.table = { p.table with nextHandle := p.table.nextHandle + i }) : q.Regular := by
  have hslot? : ∀ m, q.table.slot? m = p.table.slot? m := fun m => by rw [htable]; rfl
  have hlayers := layers_congr hslots hslot?
  have hnext : p.table.nextHandle ≤ q.table.nextHandle := by rw [htable]; exact Nat.le_add_right _ _
  refine ⟨fun m s hs => ?_, fun m => ?_, fun m => ?_, fun m l hl => ?_, fun x hx => ?_⟩
  · rw [hslots]
    exact h.slotted m s (hslot? m ▸ hs)
  · rw [hlayers]
    exact h.sorted m
  · rw [hlayers]
    exact h.distinct m
  · rw [hlayers] at hl
    obtain ⟨hraw, hlt⟩ := h.drawn m l hl
    exact ⟨hraw, Nat.lt_of_lt_of_le hlt hnext⟩
  · rw [htable] at hx
    exact Nat.lt_of_lt_of_le (h.live x hx) hnext

/-- A chain may lose layers, and handles may die. -/
theorem fewer (h : p.Regular) (hslotted : q.Slotted)
    (hlayers : ∀ m, (q.layers m).Sublist (p.layers m)) (hlive : q.table.live ⊆ p.table.live)
    (hnext : q.table.nextHandle = p.table.nextHandle) : q.Regular where
  slotted := hslotted
  sorted := fun m => (h.sorted m).sublist (hlayers m)
  distinct := fun m => (h.distinct m).sublist (hlayers m)
  drawn := fun m l hl => by
    rw [hnext]
    exact h.drawn m l ((hlayers m).subset hl)
  live := fun x hx => by
    rw [hnext]
    exact h.live x (hlive hx)

/-- One slot gets other layers, and the chains of other methods stay. -/
theorem layers_modify (h : p.Regular) {m : MethodId} {s : Nat} (hs : p.table.slot? m = some s)
    {f : Slot ν → Slot ν} (hslots : q.slots = p.slots.modify s f)
    (hslot? : ∀ a, q.table.slot? a = p.table.slot? a) (edit : List (Layer ν) → List (Layer ν))
    (hf : ∀ x, (f x).layers = edit x.layers) (a : MethodId) :
    q.layers a = if a = m then edit (p.layers m) else p.layers a := by
  obtain ⟨x, hx, -⟩ := h.slotted m s hs
  by_cases ha : a = m
  · subst ha
    simp [layers, slot?, hslot?, hslots, hs, hx, hf]
  · rw [if_neg ha]
    cases ht : p.table.slot? a with
    | none => simp [layers, slot?, hslot?, ht]
    | some t =>
      have hne : s ≠ t := fun heq => ha (h.slot_inj hs (heq ▸ ht))
      simp [layers, slot?, hslot?, hslots, ht, hne]

/-- A slot that gets other layers still belongs to its method. -/
theorem slotted_modify (h : p.Regular) {s : Nat} {f : Slot ν → Slot ν}
    (hslots : q.slots = p.slots.modify s f)
    (hslot? : ∀ a, q.table.slot? a = p.table.slot? a) (hf : ∀ x, (f x).method = x.method) :
    q.Slotted := by
  intro a t ht
  obtain ⟨x, hx, hxa⟩ := h.slotted a t (hslot? a ▸ ht)
  rw [hslots, List.getElem?_modify, hx]
  split
  · exact ⟨f x, rfl, (hf x).trans hxa⟩
  · exact ⟨x, rfl, hxa⟩

/-- Layers that were drawn later have no place in the order that is taken. -/
theorem distinct_append (h : p.Regular) {ls : List (Layer ν)}
    (rising : ls.Pairwise fun a b => a.order < b.order)
    (drawn : ∀ l ∈ ls, p.table.nextHandle ≤ l.order) (m : MethodId) :
    (p.layers m ++ ls.filter (·.method = m)).Pairwise fun a b => a.order ≠ b.order := by
  refine List.pairwise_append.mpr ⟨h.distinct m, (rising.imp Nat.ne_of_lt).filter _, ?_⟩
  intro a ha b hb
  have hnew := drawn b (List.mem_filter.mp hb).1
  exact Nat.ne_of_lt (Nat.lt_of_lt_of_le (h.drawn m a ha).2 hnew)

end Regular

/-! ## Gaining layers -/

/-- The table of `q` is that of `p` with these layers more, each in its place,
and with handles that nobody had before. -/
structure Gains (ls : List (Layer ν)) (p q : Host ν) : Prop where
  layers : ∀ m, q.layers m = (p.layers m ++ ls.filter (·.method = m)).mergeSort Layer.before
  live : q.table.live = p.table.live ++ ls.map fun l => (l.handle, l.method)
  numbered : ∀ l ∈ ls, l.handle.raw = l.order
  rising : ls.Pairwise fun a b => a.order < b.order
  drawn : ∀ l ∈ ls, p.table.nextHandle ≤ l.order ∧ l.order < q.table.nextHandle
  onward : p.table.nextHandle ≤ q.table.nextHandle

namespace Gains

variable {ls ls' : List (Layer ν)}

/-- A table whose handles alone have moved on gains nothing. -/
theorem nil (h : p.Regular) {i : Nat} (hslots : q.slots = p.slots)
    (htable : q.table = { p.table with nextHandle := p.table.nextHandle + i }) :
    Gains [] p q where
  layers := by
    intro m
    rw [List.filter_nil, List.append_nil, List.mergeSort_of_pairwise (h.sorted m)]
    exact layers_congr hslots (fun a => by rw [htable]; rfl) m
  live := by
    rw [htable, List.map_nil, List.append_nil]
  numbered := fun l hl => absurd hl List.not_mem_nil
  rising := .nil
  drawn := fun l hl => absurd hl List.not_mem_nil
  onward := by
    rw [htable]
    exact Nat.le_add_right _ _

/-- **Gains add up.** -/
theorem trans (g : Gains ls p q) (g' : Gains ls' q r) (h : p.Regular) :
    Gains (ls ++ ls') p r := by
  have hnumbered : ∀ l ∈ ls ++ ls', l.handle.raw = l.order := fun l hl =>
    (List.mem_append.mp hl).elim (g.numbered l) (g'.numbered l)
  have hrising : (ls ++ ls').Pairwise fun a b => a.order < b.order := by
    refine List.pairwise_append.mpr ⟨g.rising, g'.rising, fun a ha b hb => ?_⟩
    exact Nat.lt_of_lt_of_le (g.drawn a ha).2 (g'.drawn b hb).1
  have hdrawn : ∀ l ∈ ls ++ ls', p.table.nextHandle ≤ l.order ∧ l.order < r.table.nextHandle := by
    intro l hl
    rcases List.mem_append.mp hl with hl | hl
    · exact ⟨(g.drawn l hl).1, Nat.lt_of_lt_of_le (g.drawn l hl).2 g'.onward⟩
    · exact ⟨Nat.le_trans g.onward (g'.drawn l hl).1, (g'.drawn l hl).2⟩
  refine ⟨fun m => ?_, ?_, hnumbered, hrising, hdrawn, Nat.le_trans g.onward g'.onward⟩
  · -- the first sorting is forgotten by the second, because no two layers may change places
    have hdistinct := h.distinct_append hrising (fun l hl => (hdrawn l hl).1) m
    rw [g'.layers, g.layers]
    refine (mergeSort_eq_of_perm Layer.before_trans Layer.before_total ?_ ?_).symm
    · intro a ha b hb hab hba
      exact eq_of_pairwise_ne hdistinct ha hb (Layer.order_eq_of_before hab hba)
    · rw [List.filter_append, ← List.append_assoc]
      exact (List.mergeSort_perm _ _).symm.append_right _
  · rw [g'.live, g.live, List.map_append, List.append_assoc]

/-- A regular table stays regular as it gains layers. -/
theorem regular (g : Gains ls p q) (h : p.Regular) (hslotted : q.Slotted) : q.Regular where
  slotted := hslotted
  sorted := by
    intro m
    rw [g.layers]
    exact List.pairwise_mergeSort Layer.before_trans Layer.before_total _
  distinct := by
    intro m
    rw [g.layers]
    exact ((List.mergeSort_perm _ _).pairwise_iff fun hab => hab.symm).mpr
      (h.distinct_append g.rising (fun l hl => (g.drawn l hl).1) m)
  drawn := by
    intro m l hl
    rw [g.layers, List.mem_mergeSort, List.mem_append, List.mem_filter] at hl
    rcases hl with hl | ⟨hl, -⟩
    · exact ⟨(h.drawn m l hl).1, Nat.lt_of_lt_of_le (h.drawn m l hl).2 g.onward⟩
    · exact ⟨g.numbered l hl, (g.drawn l hl).2⟩
  live := by
    intro x hx
    rw [g.live, List.mem_append, List.mem_map] at hx
    rcases hx with hx | ⟨l, hl, rfl⟩
    · exact Nat.lt_of_lt_of_le (h.live x hx) g.onward
    · rw [g.numbered l hl]
      exact (g.drawn l hl).2

/-! ### What is old and what is new -/

/-- Among layers none of which is new, a chain is what it was. -/
theorem filter_eq (g : Gains ls p q) (h : p.Regular) {keep : Layer ν → Bool}
    (hnew : ∀ l ∈ ls, keep l = false) (m : MethodId) :
    (q.layers m).filter keep = (p.layers m).filter keep := by
  have hnone : (ls.filter (·.method = m)).filter keep = [] :=
    List.filter_eq_nil_iff.mpr fun l hl => by simp [hnew l (List.mem_filter.mp hl).1]
  rw [g.layers, filter_mergeSort keep Layer.before_trans Layer.before_total, List.filter_append,
    hnone, List.append_nil, List.mergeSort_of_pairwise ((h.sorted m).filter keep)]

/-- A layer that was there has none of the new handles. -/
theorem handle_not_mem (g : Gains ls p q) (h : p.Regular) {m : MethodId} {l : Layer ν}
    (hl : l ∈ p.layers m) : l.handle ∉ ls.map (·.handle) := by
  intro hmem
  obtain ⟨x, hx, heq⟩ := List.mem_map.mp hmem
  have hold := h.drawn m l hl
  have hnew := g.drawn x hx
  have hraw := congrArg HookHandle.raw heq
  rw [g.numbered x hx, hold.1] at hraw
  omega

/-- **The layers that were there stay, in their order.** -/
theorem kept (g : Gains ls p q) (h : p.Regular) (m : MethodId) :
    (q.layers m).filter (·.handle ∉ ls.map (·.handle)) = p.layers m := by
  have hnew : ∀ l ∈ ls, decide (l.handle ∉ ls.map (·.handle)) = false := fun l hl =>
    decide_eq_false (not_not_intro (List.mem_map.mpr ⟨l, hl, rfl⟩))
  rw [g.filter_eq h hnew]
  exact List.filter_eq_self.mpr fun l hl => decide_eq_true (g.handle_not_mem h hl)

/-- **The layers that came are the new ones**, and of one priority they stand
in the order in which they came. -/
theorem own (g : Gains ls p q) (h : p.Regular) {n : Int32} (hn : ∀ l ∈ ls, l.priority = n)
    (m : MethodId) :
    (q.layers m).filter (·.handle ∈ ls.map (·.handle)) = ls.filter (·.method = m) := by
  have hold : (p.layers m).filter (·.handle ∈ ls.map (·.handle)) = [] :=
    List.filter_eq_nil_iff.mpr fun l hl => by
      rw [decide_eq_true_iff]
      exact g.handle_not_mem h hl
  have hnew : (ls.filter (·.method = m)).filter (·.handle ∈ ls.map (·.handle))
      = ls.filter (·.method = m) :=
    List.filter_eq_self.mpr fun l hl =>
      decide_eq_true (List.mem_map.mpr ⟨l, (List.mem_filter.mp hl).1, rfl⟩)
  rw [g.layers, filter_mergeSort _ Layer.before_trans Layer.before_total, List.filter_append,
    hold, hnew, List.nil_append]
  refine List.mergeSort_of_pairwise ?_
  refine (g.rising.filter _).imp_of_mem fun {a b} ha hb hlt => ?_
  rw [Layer.before, hn a (List.mem_filter.mp ha).1, hn b (List.mem_filter.mp hb).1]
  simp [Nat.le_of_lt hlt]

/-- Nobody had one of the new handles. -/
theorem fresh (g : Gains ls p q) (h : p.Regular) {l : Layer ν} (hl : l ∈ ls) :
    p.table.methodOf? l.handle = none := by
  refine List.lookup_eq_none_iff.mpr fun x hx => ?_
  have hold := h.live x hx
  have hnew := (g.drawn l hl).1
  rw [← g.numbered l hl] at hnew
  refine bne_iff_ne.mpr fun heq => ?_
  rw [heq] at hnew
  omega

end Gains

/-! ## Installing -/

section Installing

variable {m : MethodId} {hook : Hook ν} {priority : Int32} {moduleId : String}

/-- One layer more, drawn with the next handle. -/
theorem Gains.single (h : p.Regular)
    (hlayers : ∀ a, q.layers a = if a = m then
        (p.layers m ++ [p.newLayer m hook priority moduleId]).mergeSort Layer.before
      else p.layers a)
    (hlive : q.table.live = p.table.live ++ [(⟨p.table.nextHandle⟩, m)])
    (hnext : q.table.nextHandle = p.table.nextHandle + 1) :
    Gains [p.newLayer m hook priority moduleId] p q where
  layers := by
    intro a
    have hmethod : (p.newLayer m hook priority moduleId).method = m := rfl
    rw [hlayers]
    by_cases ha : a = m
    · simp [ha, hmethod]
    · simp [ha, hmethod, Ne.symm ha, List.mergeSort_of_pairwise (h.sorted a)]
  live := hlive
  numbered := by
    intro l hl
    cases List.mem_singleton.mp hl
    rfl
  rising := List.pairwise_singleton _ _
  drawn := by
    intro l hl
    cases List.mem_singleton.mp hl
    exact ⟨Nat.le_refl _, hnext ▸ Nat.lt_succ_self _⟩
  onward := hnext ▸ Nat.le_succ _

namespace Regular

variable (hook priority moduleId)

/-- A further layer in a slot that is there. -/
theorem pushLayer (h : p.Regular) {s : Nat} (hs : p.table.slot? m = some s) :
    let q := (p.drawHandle.pushLayer s (p.newLayer m hook priority moduleId)).grant
      ⟨p.table.nextHandle⟩ m
    q.Slotted ∧ Gains [p.newLayer m hook priority moduleId] p q := by
  intro q
  have hslots : q.slots = p.slots.modify s fun x => { x with
      layers := (x.layers ++ [p.newLayer m hook priority moduleId]).mergeSort Layer.before } := rfl
  have hslot? : ∀ a, q.table.slot? a = p.table.slot? a := fun _ => rfl
  have hlayers := h.layers_modify hs hslots hslot?
    (fun ls => (ls ++ [p.newLayer m hook priority moduleId]).mergeSort Layer.before) fun _ => rfl
  exact ⟨h.slotted_modify hslots hslot? fun _ => rfl, .single h hlayers rfl rfl⟩

/-- A first layer, in a slot of its own. -/
theorem opened (h : p.Regular) (hs : p.table.slot? m = none) (hi : Idle 1 p q) (base : Entry ν) :
    let q' := (q.opened m base (p.newLayer m hook priority moduleId)).grant
      ⟨p.table.nextHandle⟩ m
    q'.Slotted ∧ Gains [p.newLayer m hook priority moduleId] p q' := by
  intro q'
  have hslot? : ∀ a, q'.table.slot? a = if a = m then some q.slots.length else p.table.slot? a := by
    intro a
    rw [← hi.slot? a]
    exact slot?_append q.table m a q.slots.length ((hi.slot? m).trans hs)
  have hslots : q'.slots = p.slots ++
      [{ method := m, base, layers := [p.newLayer m hook priority moduleId] }] := by
    rw [← hi.slots]
    rfl
  have hlt : ∀ {a s}, p.table.slot? a = some s → s < p.slots.length := by
    intro a s has
    obtain ⟨x, hx, -⟩ := h.slotted a s has
    exact (List.getElem?_eq_some_iff.mp hx).1
  have hlength : q.slots.length = p.slots.length := by rw [hi.slots]
  refine ⟨fun a t ht => ?_, .single h (fun a => ?_) ?_ ?_⟩
  · rw [hslot?] at ht
    rw [hslots]
    by_cases ha : a = m
    · rw [if_pos ha] at ht
      rw [← Option.some.inj ht, hlength, List.getElem?_concat_length]
      exact ⟨_, rfl, ha.symm⟩
    · rw [if_neg ha] at ht
      rw [List.getElem?_append_left (hlt ht)]
      exact h.slotted a t ht
  · by_cases ha : a = m
    · simp [layers, Host.slot?, hslot?, hslots, ha, hlength, hs]
    · rw [if_neg ha, layers, Host.slot?, hslot?, if_neg ha, hslots, layers, Host.slot?]
      cases ht : p.table.slot? a with
      | none => rfl
      | some t => rw [Option.bind_some, Option.bind_some, List.getElem?_append_left (hlt ht)]
  · show q.table.live ++ _ = _
    rw [hi.table]
  · show q.table.nextHandle = _
    rw [hi.table]

/-- **What an install does to a regular table**: one that is refused gains no
layer, and any other gains the one that was asked for. -/
theorem install (h : p.Regular) (m : MethodId) :
    (p.install m hook priority moduleId).2.Regular ∧
      ((∃ e, (p.install m hook priority moduleId).1 = .error e ∧
          Gains [] p (p.install m hook priority moduleId).2) ∨
        ((p.install m hook priority moduleId).1 = .ok ⟨p.table.nextHandle⟩ ∧
          Gains [p.newLayer m hook priority moduleId] p
            (p.install m hook priority moduleId).2)) := by
  rcases p.install_cases m hook priority moduleId with
    ⟨e, q, i, heq, hi⟩ | ⟨s, hs, heq⟩ | ⟨hs, q, x, hi, _, heq⟩
  · rw [heq]
    exact ⟨h.same hi.slots hi.table, .inl ⟨e, rfl, .nil h hi.slots hi.table⟩⟩
  · rw [heq]
    obtain ⟨hslotted, hgain⟩ := h.pushLayer hook priority moduleId hs
    exact ⟨hgain.regular h hslotted, .inr ⟨rfl, hgain⟩⟩
  · rw [heq]
    obtain ⟨hslotted, hgain⟩ := h.opened hook priority moduleId hs hi x.entry
    exact ⟨hgain.regular h hslotted, .inr ⟨rfl, hgain⟩⟩

end Regular

end Installing

/-! ## Removing -/

theorem live_forget (p : Host ν) (g : HookHandle) : (p.forget g).table.live ⊆ p.table.live :=
  fun _ hx => (List.mem_filter.mp hx).1

namespace Regular

/-- A slot that is left with fewer layers. -/
theorem setLayers (h : p.Regular) (g : HookHandle) {m : MethodId} {s : Nat} {slot : Slot ν}
    (hs : p.table.slot? m = some s) (hslot : p.slots[s]? = some slot) {ls : List (Layer ν)}
    (hls : ls.Sublist slot.layers) : ((p.forget g).setLayers s ls).Regular := by
  have hslots : ((p.forget g).setLayers s ls).slots
      = p.slots.modify s fun x => { x with layers := ls } := rfl
  have hslot? : ∀ a, ((p.forget g).setLayers s ls).table.slot? a = p.table.slot? a := fun _ => rfl
  have hlayers := h.layers_modify hs hslots hslot? (fun _ => ls) fun _ => rfl
  have hchain : p.layers m = slot.layers := by simp [layers, Host.slot?, hs, hslot]
  refine h.fewer (h.slotted_modify hslots hslot? fun _ => rfl) (fun a => ?_) (p.live_forget g) rfl
  rw [hlayers]
  split
  · rename_i ha
    rw [ha, hchain]
    exact hls
  · exact List.Sublist.refl _

/-- A method that is taken out of the table. -/
theorem closeSlot (h : p.Regular) (g : HookHandle) (m : MethodId) (e : Entry ν) :
    (((p.forget g).setEntry m e).closeSlot m).Regular := by
  have hslot? : ∀ a, (((p.forget g).setEntry m e).closeSlot m).table.slot? a
      = if a = m then none else p.table.slot? a :=
    fun a => slot?_closeSlot _ m a
  refine h.fewer (fun a s hs => ?_) (fun a => ?_) (p.live_forget g) rfl
  · rw [hslot?] at hs
    split at hs
    · cases hs
    · exact h.slotted a s hs
  · rw [layers, Host.slot?, hslot?]
    split
    · exact List.nil_sublist _
    · exact List.Sublist.refl _

theorem remove (h : p.Regular) (g : HookHandle) : (p.remove g).2.Regular := by
  have hforget : (p.forget g).Regular :=
    h.fewer h.slotted (fun _ => List.Sublist.refl _) (p.live_forget g) rfl
  unfold Host.remove
  split
  · exact h
  · dsimp only
    split
    · exact hforget
    · rename_i s hs
      split
      · exact hforget
      · rename_i slot hslot
        split
        · split
          · exact h.setLayers g hs hslot (List.nil_sublist _)
          · rename_i hres
            rw [restore_eq_ok hres]
            exact h.closeSlot g _ _
        · exact h.setLayers g hs hslot List.filter_sublist

theorem removeAll (h : p.Regular) (gs : List HookHandle) : (p.removeAll gs).2.Regular := by
  induction gs generalizing p with
  | nil => exact h
  | cons g gs ih =>
    rw [removeAll_cons_snd]
    exact ih (h.remove g)

end Regular

/-! ## Tables that came about -/

/-- A hook table that came about by its own operations. The runtime under it
may have become any other in the meantime, and each operation may have been
refused. -/
inductive Tabled : Host ν → Prop
  | empty {p : Host ν} (slots : p.slots = []) (table : p.table = {}) : Tabled p
  | operated {p : Host ν} (h : Tabled p) (op : TableOp ν) : Tabled (p.perform op).2
  | meanwhile {p q : Host ν} (h : Tabled p) (slots : q.slots = p.slots)
      (table : q.table = p.table) : Tabled q

/-- **A table that came about by its own operations is regular.** -/
theorem Tabled.regular (h : p.Tabled) : p.Regular := by
  induction h with
  | @empty p slots table =>
    have hnone : ∀ m, p.table.slot? m = none := fun m => by rw [table]; rfl
    have hnil : ∀ m, p.layers m = [] := fun m => by rw [layers, Host.slot?, hnone]; rfl
    refine ⟨fun m s hs => ?_, fun m => ?_, fun m => ?_, fun m l hl => ?_, fun x hx => ?_⟩
    · rw [hnone] at hs
      cases hs
    · rw [hnil]
      exact .nil
    · rw [hnil]
      exact .nil
    · rw [hnil] at hl
      cases hl
    · rw [table] at hx
      cases hx
  | @operated p _ op ih =>
    cases op with
    | declare className name params ret flags form body => exact ih.same (i := 0) rfl rfl
    | setForm m form => exact ih.same (i := 0) rfl rfl
    | install m hook priority moduleId => exact (ih.install hook priority moduleId m).1
    | remove g => exact ih.remove g
    | removeModule moduleId => exact ih.removeAll (p.ownedBy moduleId)
    | refuse refusals => exact ih.same (i := 0) rfl rfl
  | meanwhile _ slots table ih => exact ih.same (i := 0) slots table

/-- **No code takes a table to where its own operations could not.** -/
theorem tabled_carried : Carried (ν := ν) .any fun p q => p.Tabled → q.Tabled where
  refl := fun _ hp => hp
  trans := fun _ _ _ hpq hqr hp => hqr (hpq hp)
  note := fun _ _ hp => hp.meanwhile rfl rfl
  setInit := fun _ _ _ hp => hp.meanwhile rfl rfl
  answer := by
    intro p q _ hp
    cases q with
    | remove g => exact hp.operated (.remove g)
    | removeModule moduleId => exact hp.operated (.removeModule moduleId)
    | setForm m form => exact hp.operated (.setForm m form)
    | deoptimize m => exact hp.meanwhile (p.idle_deoptimize m).slots (p.idle_deoptimize m).table
    | enterApp => exact hp.meanwhile rfl rfl
    | count c => exact hp.meanwhile rfl rfl
    | look => exact hp
  redirect := fun _ _ _ _ _ hq hp => redirect_eq_ok hq ▸ hp.meanwhile rfl rfl
  install := fun _ _ m hook priority moduleId hp =>
    hp.operated (.install m hook priority moduleId)

end Host

end Interpose
