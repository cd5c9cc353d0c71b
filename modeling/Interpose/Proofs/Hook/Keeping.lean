/-
Interpose.Proofs.Hook.Keeping — a process that keeps a ledger.

`Host.Keeps p L elsewhere` ties the three things together that the hook
table keeps apart: the runtime's entry for a method, the slot that holds
what the method did before, and the chain in the slot. A method without a
slot does what it was declared to do. A method with a slot has a
dispatcher for an entry, and its slot holds the declared body (never a
dispatcher) and the layers of the ledger's chain. A slot may hold no layer
at all: that is what a refused restore leaves behind.

Somebody else may have pointed a hooked method at code of their own, past
its slot. `elsewhere` says for which methods and at what; where the table
is the only one to redirect methods it is `none` throughout.

Main statements: `Keeps.idle`, `Keeps.install`, `Keeps.redirect`,
`Keeps.remove`, `Keeps.removeAll` and `Keeps.removeModule`, one for each
operation.
-/
import Interpose.Proofs.Hook.Ledger
import Interpose.Proofs.Hook.Steps

namespace Interpose

/-! ## Lines and layers -/

section Layers

variable {ν : Type}

/-- The layer that a line stands for. -/
def Line.layer (l : Line ν) : Layer ν :=
  { handle := l.handle, method := l.method, moduleId := l.moduleId, priority := l.priority
    order := l.handle.raw, hook := l.hook }

def Layer.face (l : Layer ν) : Face ν :=
  { method := l.method, moduleId := l.moduleId, priority := l.priority, hook := l.hook }

/-- The lines stand in the order of their handles. -/
def Ledger.Numbered (L : Ledger ν) : Prop :=
  L.lines.Pairwise fun a b => a.handle.raw < b.handle.raw

/-- A handle tells its line. -/
theorem Ledger.Numbered.eq_of_handle {L : Ledger ν} (n : L.Numbered) {a b : Line ν}
    (ha : a ∈ L.lines) (hb : b ∈ L.lines) (h : a.handle = b.handle) : a = b := by
  have hraw := congrArg HookHandle.raw h
  exact eq_of_pairwise_ne (n.imp Nat.ne_of_lt) ha hb hraw

/-- Handles and times grow together, so that layers are ordered as their lines are. -/
theorem Ledger.before_layer {L : Ledger ν} (t : L.Timed) (n : L.Numbered) :
    ∀ a ∈ L.lines, ∀ b ∈ L.lines, a.before b = a.layer.before b.layer := by
  have hiff := le_iff_of_rising t.rising n
  intro a ha b hb
  have hord : decide (a.time ≤ b.time) = decide (a.handle.raw ≤ b.handle.raw) :=
    decide_eq_decide.mpr (hiff a ha b hb)
  rw [Line.before, hord]
  rfl

/-- Layers are sorted as their lines are. -/
theorem Ledger.map_layer_mergeSort {L : Ledger ν} (t : L.Timed) (n : L.Numbered)
    {ls : List (Line ν)} (hls : ∀ l ∈ ls, l ∈ L.lines) :
    (ls.mergeSort Line.before).map Line.layer = (ls.map Line.layer).mergeSort Layer.before :=
  List.map_mergeSort fun a ha b hb => before_layer t n a (hls a ha) b (hls b hb)

end Layers

namespace Host

variable {ν : Type}

/-! ## Keeping -/

/-- The entry of a method: its body without a slot, and with one the slot's
dispatcher, unless the method has been pointed elsewhere. -/
def entryFor (slot : Option Nat) (elsewhere : Option (Body ν)) (b : Body ν) : Entry ν :=
  match slot with
  | none => .body b
  | some s => elsewhere.elim (.dispatcher s) .body

/-- A process that keeps a ledger, but for the methods that have been pointed elsewhere. -/
structure Keeps (p : Host ν) (L : Ledger ν) (elsewhere : MethodId → Option (Body ν)) : Prop where
  timed : L.Timed
  numbered : L.Numbered
  used : ∀ l ∈ L.lines, l.handle.raw < p.table.nextHandle
  live : p.table.live = L.lines.map fun l => (l.handle, l.method)
  hooked : ∀ l ∈ L.lines, p.table.slot? l.method ≠ none
  entries : ∀ m, (p.method? m).map (·.entry)
    = (L.body? m).map (entryFor (p.table.slot? m) (elsewhere m))
  /-- A slot is above the declared body and holds the ledger's chain. -/
  slots : ∀ m s, p.table.slot? m = some s → ∃ b, L.body? m = some b ∧ p.slots[s]?
    = some { method := m, base := .body b, layers := (L.chain m).map Line.layer }
  unhooked : ∀ m, p.table.slot? m = none → elsewhere m = none

/-- Whatever was done to a method behind its slot is undone with the slot. -/
def Undone (L : Ledger ν) (e e' : MethodId → Option (Body ν)) : Prop :=
  ∀ a, e' a = e a ∨ (e' a = none ∧ L.chain a = [])

namespace Undone

variable {L M : Ledger ν} {e e' e'' : MethodId → Option (Body ν)}

theorem refl : Undone L e e := fun _ => .inl rfl

theorem trans (h : Undone L e e') (h' : Undone L e' e'') : Undone L e e'' := by
  intro a
  rcases h' a with heq | hnil
  · rcases h a with heq' | ⟨hnone, hnil⟩
    · exact .inl (heq.trans heq')
    · exact .inr ⟨heq.trans hnone, hnil⟩
  · exact .inr hnil

theorem mono (h : Undone L e e') (hmono : ∀ a, L.chain a = [] → M.chain a = []) :
    Undone M e e' :=
  fun a => (h a).imp_right fun ⟨hnone, hnil⟩ => ⟨hnone, hmono a hnil⟩

theorem closed {m : MethodId} (hnil : L.chain m = []) :
    Undone L e fun a => if a = m then none else e a := by
  intro a
  by_cases ha : a = m
  · subst ha
    exact .inr ⟨if_pos rfl, hnil⟩
  · exact .inl (if_neg ha)

end Undone

namespace Keeps

variable {p q : Host ν} {L : Ledger ν} {elsewhere : MethodId → Option (Body ν)}

theorem slot_lt (k : p.Keeps L elsewhere) {m : MethodId} {s : Nat}
    (h : p.table.slot? m = some s) : s < p.slots.length := by
  obtain ⟨b, _, hslot⟩ := k.slots m s h
  exact (List.getElem?_eq_some_iff.mp hslot).1

/-- A slot belongs to one method. -/
theorem slot_inj (k : p.Keeps L elsewhere) {m a : MethodId} {s : Nat}
    (hm : p.table.slot? m = some s) (ha : p.table.slot? a = some s) : a = m := by
  obtain ⟨b, _, hb⟩ := k.slots m s hm
  obtain ⟨c, _, hc⟩ := k.slots a s ha
  rw [hb] at hc
  exact (congrArg Slot.method (Option.some.inj hc)).symm

/-- What the ledger knows is declared. -/
theorem method?_ne_none (k : p.Keeps L elsewhere) {m : MethodId} {b : Body ν}
    (hb : L.body? m = some b) : p.method? m ≠ none := by
  intro hnone
  have hentry := k.entries m
  rw [hb, hnone] at hentry
  exact absurd hentry.symm (Option.some_ne_none _)

/-- A method without a slot has its own body for an entry. -/
theorem entry_of_unhooked (k : p.Keeps L elsewhere) {m : MethodId} {x : Method ν}
    (hx : p.method? m = some x) (hs : p.table.slot? m = none) :
    ∃ b, L.body? m = some b ∧ x.entry = .body b := by
  have hentry := k.entries m
  rw [hx, hs] at hentry
  cases hb : L.body? m with
  | none =>
    rw [hb] at hentry
    exact absurd hentry (Option.some_ne_none _)
  | some b =>
    rw [hb] at hentry
    exact ⟨b, rfl, Option.some.inj hentry⟩

/-- Without a slot there are no lines. -/
theorem chain_eq_nil (k : p.Keeps L elsewhere) {m : MethodId} (h : p.table.slot? m = none) :
    L.chain m = [] := by
  apply Ledger.chain_eq_nil_iff.mpr
  intro l hl hm
  exact k.hooked l hl (hm ▸ h)

/-- The layers on a method are those of its chain. -/
theorem layers (k : p.Keeps L elsewhere) (m : MethodId) :
    p.layers m = (L.chain m).map Line.layer := by
  rw [Host.layers, Host.slot?]
  cases h : p.table.slot? m with
  | none => rw [k.chain_eq_nil h]; rfl
  | some s =>
    obtain ⟨b, _, hslot⟩ := k.slots m s h
    rw [Option.bind_some, hslot]
    rfl

/-- The method of a handle is the one on its line. -/
theorem methodOf?_eq_some (k : p.Keeps L elsewhere) {h : HookHandle} {m : MethodId}
    (hm : p.table.methodOf? h = some m) : ∃ l ∈ L.lines, l.handle = h ∧ l.method = m := by
  rw [HookTable.methodOf?, k.live] at hm
  obtain ⟨l₁, l₂, heq, _⟩ := List.lookup_eq_some_iff.mp hm
  have hmem : (h, m) ∈ L.lines.map fun l => (l.handle, l.method) := by rw [heq]; simp
  obtain ⟨l, hl, hpair⟩ := List.mem_map.mp hmem
  exact ⟨l, hl, congrArg Prod.fst hpair, congrArg Prod.snd hpair⟩

theorem methodOf?_eq_none (k : p.Keeps L elsewhere) {h : HookHandle}
    (hm : p.table.methodOf? h = none) : ∀ l ∈ L.lines, l.handle ≠ h := by
  intro l hl heq
  rw [HookTable.methodOf?, k.live] at hm
  have := List.lookup_eq_none_iff.mp hm (l.handle, l.method) (List.mem_map.mpr ⟨l, hl, rfl⟩)
  simp [heq] at this

/-- A handle is live on a method when a line says so. -/
theorem methodOf?_iff (k : p.Keeps L elsewhere) (h : HookHandle) (m : MethodId) :
    p.table.methodOf? h = some m ↔ ∃ l ∈ L.lines, l.handle = h ∧ l.method = m := by
  constructor
  · exact k.methodOf?_eq_some
  · rintro ⟨l, hl, rfl, rfl⟩
    cases hm : p.table.methodOf? l.handle with
    | none => exact absurd rfl (k.methodOf?_eq_none hm l hl)
    | some a =>
      obtain ⟨l', hl', heq, rfl⟩ := k.methodOf?_eq_some hm
      rw [k.numbered.eq_of_handle hl' hl heq]

/-- A ledger is kept as long as slots, hook table and entries are left alone;
handles may be used up. -/
theorem same (k : p.Keeps L elsewhere) {i : Nat} (hslots : q.slots = p.slots)
    (htable : q.table = { p.table with nextHandle := p.table.nextHandle + i })
    (hentries : ∀ m, (q.method? m).map (·.entry) = (p.method? m).map (·.entry)) :
    q.Keeps L elsewhere := by
  have hslot? : ∀ m, q.table.slot? m = p.table.slot? m := fun m => by rw [htable]; rfl
  refine
    { timed := k.timed
      numbered := k.numbered
      used := ?_, live := ?_, hooked := ?_, entries := ?_, slots := ?_, unhooked := ?_ }
  · intro l hl
    rw [htable]
    exact Nat.lt_of_lt_of_le (k.used l hl) (Nat.le_add_right _ _)
  · rw [htable]
    exact k.live
  · intro l hl
    rw [hslot?]
    exact k.hooked l hl
  · intro m
    rw [hentries, hslot?]
    exact k.entries m
  · intro m s hs
    rw [hslot?] at hs
    rw [hslots]
    exact k.slots m s hs
  · intro m hs
    rw [hslot?] at hs
    exact k.unhooked m hs

/-- What nobody could notice keeps the ledger. -/
theorem idle (k : p.Keeps L elsewhere) {i : Nat} (h : Idle i p q) : q.Keeps L elsewhere :=
  k.same h.slots h.table h.entries

theorem setForm (k : p.Keeps L elsewhere) (m : MethodId) (form : ExecForm) :
    (p.setForm m form).Keeps L elsewhere := by
  exact k.same (i := 0) rfl rfl fun a => entry_setForm p m a form

/-- A new method writes its body down. -/
theorem declare (k : p.Keeps L elsewhere) (className name : String) (params : List String)
    (ret : String) (flags : MethodFlags) (form : ExecForm) (body : Body ν) :
    (p.declare className name params ret flags form body).Keeps
      (L.declare ⟨UInt64.ofNat (p.methods.length + 1)⟩ body) elsewhere := by
  generalize hid : (⟨UInt64.ofNat (p.methods.length + 1)⟩ : MethodId) = id
  refine
    { timed := ⟨k.timed.rising, k.timed.past⟩
      numbered := k.numbered
      used := k.used
      live := k.live
      hooked := k.hooked
      entries := ?_, slots := ?_
      unhooked := k.unhooked }
  · intro a
    show _ = Option.map (entryFor (p.table.slot? a) (elsewhere a)) _
    have hentry := k.entries a
    rw [method?_declare, hid, Ledger.body?_declare]
    cases hx : p.method? a with
    | some x =>
      cases hb : L.body? a with
      | none => rw [hx, hb] at hentry; exact absurd hentry (Option.some_ne_none _)
      | some b => rw [hx, hb] at hentry; exact hentry
    | none =>
      cases hb : L.body? a with
      | some b => exact absurd hx (k.method?_ne_none hb)
      | none =>
        have hs : p.table.slot? a = none := by
          cases hs : p.table.slot? a with
          | none => rfl
          | some s =>
            obtain ⟨b, hb', _⟩ := k.slots a s hs
            rw [hb] at hb'
            exact absurd hb'.symm (Option.some_ne_none _)
        rw [hs]
        by_cases ha : a = id <;> simp [ha, entryFor]
  · intro a s hs
    obtain ⟨b, hb, hslot⟩ := k.slots a s hs
    refine ⟨b, ?_, hslot⟩
    rw [Ledger.body?_declare, hb]
    rfl

/-! ## Installing -/

/-- The next handle is above all that are on the ledger. -/
theorem numbered_install (k : p.Keeps L elsewhere) (m : MethodId) (hook : Hook ν)
    (priority : Int32) (moduleId : String) :
    (L.install ⟨p.table.nextHandle⟩ m hook priority moduleId).Numbered := by
  refine List.pairwise_append.mpr ⟨k.numbered, List.pairwise_singleton _ _, ?_⟩
  intro a ha b hb
  rw [List.mem_singleton.mp hb]
  exact k.used a ha

theorem used_install (k : p.Keeps L elsewhere) (m : MethodId) (hook : Hook ν)
    (priority : Int32) (moduleId : String) :
    ∀ l ∈ (L.install ⟨p.table.nextHandle⟩ m hook priority moduleId).lines,
      l.handle.raw < p.table.nextHandle + 1 := by
  intro l hl
  rcases List.mem_append.mp hl with hl | hl
  · exact Nat.lt_succ_of_lt (k.used l hl)
  · rw [List.mem_singleton.mp hl]
    exact Nat.lt_succ_self _

/-- A slot that takes a further layer holds the chain with the further line. -/
theorem pushed_layers (k : p.Keeps L elsewhere) (m : MethodId) (hook : Hook ν)
    (priority : Int32) (moduleId : String) :
    ((L.chain m).map Line.layer ++ [p.newLayer m hook priority moduleId]).mergeSort Layer.before
      = ((L.install ⟨p.table.nextHandle⟩ m hook priority moduleId).chain m).map Line.layer := by
  have hnew : p.newLayer m hook priority moduleId
      = (L.newLine ⟨p.table.nextHandle⟩ m hook priority moduleId).layer := rfl
  rw [Ledger.chain_install k.timed, if_pos rfl, hnew, ← List.map_singleton, ← List.map_append]
  symm
  apply Ledger.map_layer_mergeSort (k.timed.install _ m hook priority moduleId)
    (k.numbered_install m hook priority moduleId)
  intro l hl
  rcases List.mem_append.mp hl with hl | hl
  · exact List.mem_append_left _ (Ledger.mem_chain.mp hl).1
  · exact List.mem_append_right _ hl

theorem live_install (k : p.Keeps L elsewhere) (m : MethodId) (hook : Hook ν)
    (priority : Int32) (moduleId : String) :
    p.table.live ++ [(⟨p.table.nextHandle⟩, m)]
      = (L.install ⟨p.table.nextHandle⟩ m hook priority moduleId).lines.map
          fun l => (l.handle, l.method) := by
  rw [Ledger.install, List.map_append, ← k.live]
  rfl

/-- A further layer in a slot that is there. -/
theorem pushLayer (k : p.Keeps L elsewhere) {m : MethodId} {s : Nat} (hook : Hook ν)
    (priority : Int32) (moduleId : String) (hs : p.table.slot? m = some s) :
    ((p.drawHandle.pushLayer s (p.newLayer m hook priority moduleId)).grant
      ⟨p.table.nextHandle⟩ m).Keeps
        (L.install ⟨p.table.nextHandle⟩ m hook priority moduleId) elsewhere where
  timed := k.timed.install _ m hook priority moduleId
  numbered := k.numbered_install m hook priority moduleId
  used := k.used_install m hook priority moduleId
  live := k.live_install m hook priority moduleId
  hooked := by
    intro l hl
    show p.table.slot? l.method ≠ none
    rcases List.mem_append.mp hl with hl | hl
    · exact k.hooked l hl
    · rw [List.mem_singleton.mp hl]
      show p.table.slot? m ≠ none
      rw [hs]
      exact Option.some_ne_none s
  entries := k.entries
  slots := by
    intro a t ht
    have ht' : p.table.slot? a = some t := ht
    obtain ⟨b, hb, hslot⟩ := k.slots a t ht'
    refine ⟨b, hb, ?_⟩
    show (p.slots.modify s _)[t]? = _
    by_cases ha : a = m
    · subst ha
      have : t = s := Option.some.inj (ht'.symm.trans hs)
      subst this
      rw [List.getElem?_modify_eq, hslot, ← k.pushed_layers a hook priority moduleId]
      rfl
    · have hne : s ≠ t := fun h => ha (k.slot_inj hs (h ▸ ht'))
      rw [List.getElem?_modify_ne _ _ hne, hslot, Ledger.chain_install k.timed, if_neg ha]
  unhooked := k.unhooked

/-- A first layer, in a slot of its own. -/
theorem opened (k : p.Keeps L elsewhere) {m : MethodId} {x : Method ν} (hook : Hook ν)
    (priority : Int32) (moduleId : String) (hs : p.table.slot? m = none) (hi : Idle 1 p q)
    (hx : q.method? m = some x) :
    ((q.opened m x.entry (p.newLayer m hook priority moduleId)).grant
      ⟨p.table.nextHandle⟩ m).Keeps
        (L.install ⟨p.table.nextHandle⟩ m hook priority moduleId) elsewhere := by
  have kq := k.idle hi
  have hsq : q.table.slot? m = none := (hi.slot? m).trans hs
  have hslot? : ∀ a, ((q.opened m x.entry (p.newLayer m hook priority moduleId)).grant
      ⟨p.table.nextHandle⟩ m).table.slot? a
        = if a = m then some q.slots.length else q.table.slot? a :=
    fun a => slot?_append q.table m a q.slots.length hsq
  obtain ⟨b, hb, hbase⟩ := kq.entry_of_unhooked hx hsq
  refine
    { timed := k.timed.install _ m hook priority moduleId
      numbered := k.numbered_install m hook priority moduleId
      used := ?_, live := ?_, hooked := ?_, entries := ?_, slots := ?_, unhooked := ?_ }
  · intro l hl
    have := k.used_install m hook priority moduleId l hl
    show l.handle.raw < q.table.nextHandle
    rw [hi.table]
    exact this
  · show q.table.live ++ _ = _
    rw [hi.table]
    exact k.live_install m hook priority moduleId
  · intro l hl
    rw [hslot?]
    split
    · exact Option.some_ne_none _
    · rename_i hne
      rcases List.mem_append.mp hl with hl | hl
      · exact kq.hooked l hl
      · rw [List.mem_singleton.mp hl] at hne
        exact absurd rfl hne
  · intro a
    rw [hslot?]
    show ((q.setEntry m (.dispatcher q.slots.length)).method? a).map _ = (L.body? a).map _
    by_cases ha : a = m
    · subst ha
      rw [entry_setEntry_self _ hx, hb, k.unhooked a hs, if_pos rfl]
      rfl
    · rw [entry_setEntry_ne q _ ha, if_neg ha]
      exact kq.entries a
  · intro a t ht
    have ht' : (if a = m then some q.slots.length else q.table.slot? a) = some t :=
      (hslot? a).symm.trans ht
    show ∃ b, L.body? a = some b ∧ (q.slots ++ [_])[t]? = _
    by_cases ha : a = m
    · subst ha
      rw [if_pos rfl] at ht'
      rw [← Option.some.inj ht', List.getElem?_concat_length, hbase,
        ← k.pushed_layers a hook priority moduleId, k.chain_eq_nil hs, List.map_nil,
        List.nil_append, List.mergeSort_singleton]
      exact ⟨b, hb, rfl⟩
    · rw [if_neg ha] at ht'
      obtain ⟨c, hc, hslot⟩ := kq.slots a t ht'
      rw [List.getElem?_append_left (kq.slot_lt ht'), hslot, Ledger.chain_install k.timed,
        if_neg ha]
      exact ⟨c, hc, rfl⟩
  · intro a ht
    have ht' : (if a = m then some q.slots.length else q.table.slot? a) = none :=
      (hslot? a).symm.trans ht
    split at ht'
    · exact absurd ht' (Option.some_ne_none _)
    · exact kq.unhooked a ht'

/-- **An install writes its line or, refused, writes nothing.** -/
theorem install (k : p.Keeps L elsewhere) (m : MethodId) (hook : Hook ν) (priority : Int32)
    (moduleId : String) :
    (∃ e q i, p.install m hook priority moduleId = (.error e, q) ∧ q.Keeps L elsewhere ∧
      Idle i p q) ∨
    (∃ q, p.install m hook priority moduleId = (.ok ⟨p.table.nextHandle⟩, q) ∧
      q.Keeps (L.install ⟨p.table.nextHandle⟩ m hook priority moduleId) elsewhere) := by
  rcases p.install_cases m hook priority moduleId with
    ⟨e, q, i, heq, hi⟩ | ⟨s, hs, heq⟩ | ⟨hs, q, x, hi, hx, heq⟩
  · exact .inl ⟨e, q, i, heq, k.idle hi, hi⟩
  · exact .inr ⟨_, heq, k.pushLayer hook priority moduleId hs⟩
  · exact .inr ⟨_, heq, k.opened hook priority moduleId hs hi hx⟩

/-! ## Redirecting -/

/-- A body that is put before the others hides those of the same method. -/
theorem body?_redeclared (L : Ledger ν) (m a : MethodId) (b : Body ν) :
    Ledger.body? { L with bodies := (m, b) :: L.bodies } a
      = if a = m then some b else L.body? a := by
  rw [Ledger.body?, List.lookup_cons]
  by_cases ha : a = m
  · rw [if_pos ha, beq_iff_eq.mpr ha]
  · rw [if_neg ha, beq_eq_false_iff_ne.mpr ha]
    rfl

/-- Pointing a method that has no slot elsewhere is declaring it anew. -/
theorem redirect_unhooked (k : p.Keeps L elsewhere) {m : MethodId} {x : Method ν} (b : Body ν)
    (hx : p.method? m = some x) (hs : p.table.slot? m = none) :
    (p.setEntry m (.body b)).Keeps { L with bodies := (m, b) :: L.bodies } elsewhere := by
  refine
    { timed := ⟨k.timed.rising, k.timed.past⟩
      numbered := k.numbered
      used := k.used
      live := k.live
      hooked := k.hooked
      entries := ?_, slots := ?_
      unhooked := k.unhooked }
  · intro a
    show _ = Option.map (entryFor (p.table.slot? a) (elsewhere a)) _
    rw [body?_redeclared]
    by_cases ha : a = m
    · subst ha
      rw [entry_setEntry_self _ hx, hs, if_pos rfl]
      rfl
    · rw [entry_setEntry_ne p _ ha, if_neg ha]
      exact k.entries a
  · intro a s ha
    have hne : a ≠ m := by
      intro heq
      subst heq
      exact absurd (ha.symm.trans hs) (Option.some_ne_none s)
    rw [body?_redeclared, if_neg hne]
    exact k.slots a s ha

/-- Pointing a hooked method elsewhere passes its slot by, until the slot is closed. -/
theorem redirect_hooked (k : p.Keeps L elsewhere) {m : MethodId} {x : Method ν} {s : Nat}
    (b : Body ν) (hx : p.method? m = some x) (hs : p.table.slot? m = some s) :
    (p.setEntry m (.body b)).Keeps L (fun a => if a = m then some b else elsewhere a) := by
  refine
    { timed := k.timed
      numbered := k.numbered
      used := k.used
      live := k.live
      hooked := k.hooked
      entries := ?_
      slots := k.slots
      unhooked := ?_ }
  · intro a
    show _ = Option.map (entryFor (p.table.slot? a) _) _
    by_cases ha : a = m
    · subst ha
      have hentry := k.entries a
      rw [hx, hs] at hentry
      cases hb : L.body? a with
      | none =>
        rw [hb] at hentry
        exact absurd hentry (Option.some_ne_none _)
      | some c =>
        rw [entry_setEntry_self _ hx, hs, if_pos rfl]
        rfl
    · rw [entry_setEntry_ne p _ ha, if_neg ha]
      exact k.entries a
  · intro a ha
    have hne : a ≠ m := by
      intro heq
      subst heq
      exact absurd (hs.symm.trans ha) (Option.some_ne_none s)
    rw [if_neg hne]
    exact k.unhooked a ha

/-- **Who points a method at code of their own changes no line**, and nothing
about other methods. -/
theorem redirect (k : p.Keeps L elsewhere) {m : MethodId} {b : Body ν}
    (hq : p.redirect m (.body b) = .ok q) :
    ∃ bodies elsewhere', q.Keeps { L with bodies } elsewhere' ∧
      ∀ a, a ≠ m → Ledger.body? { L with bodies } a = L.body? a := by
  obtain ⟨x, hx⟩ := redirect_declared hq
  rw [redirect_eq_ok hq]
  cases hs : p.table.slot? m with
  | none =>
    refine ⟨_, _, k.redirect_unhooked b hx hs, fun a ha => ?_⟩
    rw [body?_redeclared, if_neg ha]
  | some s => exact ⟨L.bodies, _, k.redirect_hooked b hx hs, fun _ _ => rfl⟩

/-! ## Removing -/

theorem live_remove (k : p.Keeps L elsewhere) (h : HookHandle) :
    (p.forget h).table.live = (L.remove h).lines.map fun l => (l.handle, l.method) := by
  show p.table.live.filter (·.1 ≠ h) = _
  rw [k.live, List.filter_map]
  rfl

theorem layers_remove (L : Ledger ν) (h : HookHandle) (m : MethodId) :
    ((L.chain m).map Line.layer).filter (·.handle ≠ h)
      = ((L.remove h).chain m).map Line.layer := by
  rw [Ledger.chain_remove, List.filter_map]
  rfl

/-- A line struck out is in no chain but its own method's. -/
theorem chain_remove_ne (k : p.Keeps L elsewhere) {l : Line ν} (hl : l ∈ L.lines) {a : MethodId}
    (ha : a ≠ l.method) : (L.remove l.handle).chain a = L.chain a := by
  rw [Ledger.chain_remove]
  apply List.filter_eq_self.mpr
  intro b hb
  obtain ⟨hmem, hba⟩ := Ledger.mem_chain.mp hb
  refine decide_eq_true fun heq => ha ?_
  rw [← hba, k.numbered.eq_of_handle hmem hl heq]

/-- A slot that keeps what is left of its layers, be it none. -/
theorem setLayers (k : p.Keeps L elsewhere) {l : Line ν} (hl : l ∈ L.lines) {s : Nat}
    (hs : p.table.slot? l.method = some s) :
    ((p.forget l.handle).setLayers s (((L.remove l.handle).chain l.method).map Line.layer)).Keeps
      (L.remove l.handle) elsewhere where
  timed := k.timed.filter _
  numbered := k.numbered.filter _
  used := fun b hb => k.used b (List.mem_filter.mp hb).1
  live := k.live_remove l.handle
  hooked := fun b hb => k.hooked b (List.mem_filter.mp hb).1
  entries := k.entries
  slots := by
    intro a t ht
    have ht' : p.table.slot? a = some t := ht
    obtain ⟨b, hb, hslot⟩ := k.slots a t ht'
    refine ⟨b, hb, ?_⟩
    show (p.slots.modify s _)[t]? = _
    by_cases ha : a = l.method
    · subst ha
      have : t = s := Option.some.inj (ht'.symm.trans hs)
      subst this
      rw [List.getElem?_modify_eq, hslot]
      rfl
    · have hne : s ≠ t := fun h => ha (k.slot_inj hs (h ▸ ht'))
      rw [List.getElem?_modify_ne _ _ hne, hslot, k.chain_remove_ne hl ha]
  unhooked := k.unhooked

/-- A method that gets its body back. -/
theorem closed (k : p.Keeps L elsewhere) {l : Line ν} (hl : l ∈ L.lines) {b : Body ν}
    (hb : L.body? l.method = some b) (hnil : (L.remove l.handle).chain l.method = []) :
    (((p.forget l.handle).setEntry l.method (.body b)).closeSlot l.method).Keeps
      (L.remove l.handle) (fun a => if a = l.method then none else elsewhere a) := by
  have hslot? : ∀ a, (((p.forget l.handle).setEntry l.method (.body b)).closeSlot
      l.method).table.slot? a = if a = l.method then none else p.table.slot? a :=
    fun a => slot?_closeSlot _ l.method a
  refine
    { timed := k.timed.filter _
      numbered := k.numbered.filter _
      used := fun c hc => k.used c (List.mem_filter.mp hc).1
      live := k.live_remove l.handle
      hooked := ?_, entries := ?_, slots := ?_, unhooked := ?_ }
  · intro c hc
    rw [hslot?, if_neg (Ledger.chain_eq_nil_iff.mp hnil c hc)]
    exact k.hooked c (List.mem_filter.mp hc).1
  · intro a
    rw [hslot?]
    show ((p.setEntry l.method (.body b)).method? a).map _ = (L.body? a).map _
    by_cases ha : a = l.method
    · subst ha
      obtain ⟨x, hx⟩ := Option.ne_none_iff_exists'.mp (k.method?_ne_none hb)
      rw [entry_setEntry_self _ hx, hb, if_pos rfl]
      rfl
    · rw [entry_setEntry_ne p _ ha, if_neg ha, if_neg ha]
      exact k.entries a
  · intro a t ht
    rw [hslot?] at ht
    split at ht
    · exact absurd ht.symm (Option.some_ne_none _)
    · rename_i ha
      rw [k.chain_remove_ne hl ha]
      exact k.slots a t ht
  · intro a ht
    rw [hslot?] at ht
    by_cases ha : a = l.method
    · rw [if_pos ha]
    · rw [if_neg ha] at ht ⊢
      exact k.unhooked a ht

/-- **What a removal can do**: nothing, when no line has the handle; else
the line goes, and its slot is kept with the layers that are left, or is
closed when none is left. A slot is kept without layers only if the runtime
refuses to give entries back. -/
theorem remove_cases (k : p.Keeps L elsewhere) (h : HookHandle) :
    ((∀ l ∈ L.lines, l.handle ≠ h) ∧ p.remove h = (.error (.unknownHandle h), p)) ∨
    ∃ l ∈ L.lines, l.handle = h ∧
      ((∃ r s, p.table.slot? l.method = some s ∧ (∀ g, r ≠ .error (.unknownHandle g)) ∧
          ((L.remove h).chain l.method = [] → (p.refusals l.method).restore ≠ none) ∧
          p.remove h = (r, (p.forget h).setLayers s
            (((L.remove h).chain l.method).map Line.layer))) ∨
       (∃ b, L.body? l.method = some b ∧ (L.remove h).chain l.method = [] ∧
          p.remove h
            = (.ok (), ((p.forget h).setEntry l.method (.body b)).closeSlot l.method))) := by
  rcases Host.remove_cases p h with ⟨hm, heq⟩ | ⟨m, hm, hcases⟩
  · exact .inl ⟨k.methodOf?_eq_none hm, heq⟩
  · obtain ⟨l, hl, hlh, rfl⟩ := k.methodOf?_eq_some hm
    refine .inr ⟨l, hl, hlh, ?_⟩
    cases hs : p.table.slot? l.method with
    | none => exact absurd hs (k.hooked l hl)
    | some s =>
      obtain ⟨b, hb, hslot⟩ := k.slots l.method s hs
      have hthree := hcases s _ hs hslot
      rw [layers_remove L h l.method] at hthree
      rcases hthree with ⟨hne, heq⟩ | ⟨hnil, heq | ⟨e, hres, heq⟩⟩
      · refine .inl ⟨_, s, rfl, fun g => by simp, ?_, heq⟩
        intro hchain
        rw [hchain] at hne
        exact absurd rfl hne
      · exact .inr ⟨b, hb, List.map_eq_nil_iff.mp hnil, heq⟩
      · refine .inl ⟨.error (.restoreFailed l.method e), s, rfl, fun g => by simp, ?_,
          by rw [hnil]; exact heq⟩
        intro _ hnone
        rcases restore_eq_error hres with hsome | hmethod
        · exact hsome hnone
        · exact k.method?_ne_none hb hmethod

/-- **A removal strikes its line out**, refused restores included. -/
theorem remove (k : p.Keeps L elsewhere) (h : HookHandle) :
    ∃ elsewhere', (p.remove h).2.Keeps (L.remove h) elsewhere' ∧
      Undone (L.remove h) elsewhere elsewhere' := by
  rcases k.remove_cases h with ⟨hne, heq⟩ | ⟨l, hl, rfl, hgone⟩
  · rw [heq, Ledger.remove_of_forall_ne hne]
    exact ⟨elsewhere, k, .refl⟩
  · rcases hgone with ⟨r, s, hs, _, _, heq⟩ | ⟨b, hb, hnil, heq⟩
    · rw [heq]
      exact ⟨elsewhere, k.setLayers hl hs, .refl⟩
    · rw [heq]
      exact ⟨_, k.closed hl hb hnil, .closed hnil⟩

end Keeps

/-- What one removal keeps, removing one handle after the other keeps. -/
theorem removeAll_induct {R : Host ν → Ledger ν → (MethodId → Option (Body ν)) → Prop}
    (step : ∀ p L elsewhere h, R p L elsewhere → ∃ elsewhere',
      R (p.remove h).2 (L.remove h) elsewhere' ∧ Undone (L.remove h) elsewhere elsewhere')
    (hs : List HookHandle) {p : Host ν} {L : Ledger ν} {elsewhere : MethodId → Option (Body ν)}
    (h : R p L elsewhere) : ∃ elsewhere', R (p.removeAll hs).2 (L.removeAll hs) elsewhere' ∧
      Undone (L.removeAll hs) elsewhere elsewhere' := by
  induction hs generalizing p L elsewhere with
  | nil =>
    rw [Ledger.removeAll_nil]
    exact ⟨elsewhere, h, .refl⟩
  | cons g hs ih =>
    obtain ⟨between, hb, hbetween⟩ := step p L elsewhere g h
    obtain ⟨after, ha, hafter⟩ := ih hb
    rw [removeAll_cons_snd, Ledger.removeAll_cons]
    refine ⟨after, ha, (hbetween.mono ?_).trans hafter⟩
    intro a hnil
    rw [Ledger.chain_removeAll, hnil]
    rfl

namespace Keeps

variable {p : Host ν} {L : Ledger ν} {elsewhere : MethodId → Option (Body ν)}

/-- **Removing one handle after the other strikes all their lines out.** -/
theorem removeAll (k : p.Keeps L elsewhere) (hs : List HookHandle) :
    ∃ elsewhere', (p.removeAll hs).2.Keeps (L.removeAll hs) elsewhere' ∧
      Undone (L.removeAll hs) elsewhere elsewhere' :=
  removeAll_induct (fun _ _ _ h k => k.remove h) hs k

/-- The table finds a module's handles through the methods it has hooked. -/
theorem mem_ownedBy (k : p.Keeps L elsewhere) {l : Line ν} (hl : l ∈ L.lines)
    (moduleId : String) : l.handle ∈ p.ownedBy moduleId ↔ l.moduleId = moduleId := by
  rw [ownedBy, List.mem_flatMap]
  constructor
  · rintro ⟨⟨m, s⟩, _, hmem⟩
    obtain ⟨y, hy, hyl⟩ := List.mem_map.mp hmem
    obtain ⟨hlayer, hmodule⟩ := List.mem_filter.mp hy
    rw [k.layers m] at hlayer
    obtain ⟨l', hl', rfl⟩ := List.mem_map.mp hlayer
    have : l' = l := k.numbered.eq_of_handle (Ledger.mem_chain.mp hl').1 hl hyl
    rw [← this]
    exact eq_of_beq hmodule
  · intro hmodule
    cases hs : p.table.slot? l.method with
    | none => exact absurd hs (k.hooked l hl)
    | some s =>
      obtain ⟨⟨m, t⟩, hmem, hm⟩ := List.mem_map.mp (mem_keys_of_lookup hs)
      have hm' : m = l.method := hm
      refine ⟨(m, t), hmem, List.mem_map.mpr ⟨l.layer, List.mem_filter.mpr ⟨?_, ?_⟩, rfl⟩⟩
      · rw [k.layers m]
        exact List.mem_map.mpr ⟨l, Ledger.mem_chain.mpr ⟨hl, hm'.symm⟩, rfl⟩
      · exact beq_iff_eq.mpr hmodule

/-- A module's handles are those of its lines. -/
theorem removeAll_ownedBy (k : p.Keeps L elsewhere) (moduleId : String) :
    L.removeAll (p.ownedBy moduleId) = L.removeModule moduleId := by
  rw [Ledger.removeAll, Ledger.removeModule]
  congr 1
  apply List.filter_congr
  intro l hl
  simp [k.mem_ownedBy hl moduleId]

/-- **Removing a module strikes its lines out.** -/
theorem removeModule (k : p.Keeps L elsewhere) (moduleId : String) :
    ∃ elsewhere', (p.removeModule moduleId).2.Keeps (L.removeModule moduleId) elsewhere' ∧
      Undone (L.removeModule moduleId) elsewhere elsewhere' := by
  rw [← k.removeAll_ownedBy moduleId]
  exact k.removeAll (p.ownedBy moduleId)

end Keeps

/-! ## To start from -/

/-- Nothing redirected: the table is empty and every method does what it
was declared to do. -/
structure Untouched (p : Host ν) : Prop where
  slots : p.slots = []
  table : p.table = {}
  entries : ∀ x ∈ p.methods, ∃ b, x.entry = .body b

end Host

variable {ν : Type}

/-- The ledger of a process in which nothing is redirected. -/
def Ledger.of (p : Host ν) : Ledger ν where
  bodies := p.methods.filterMap fun x =>
    match x.entry with
    | .body b => some (x.info.id, b)
    | .dispatcher _ => none

theorem Ledger.body?_of {p : Host ν} (h : p.Untouched) (m : MethodId) :
    (p.method? m).map (·.entry) = ((Ledger.of p).body? m).map .body := by
  have hentries := h.entries
  unfold Ledger.of Ledger.body? Host.method?
  generalize p.methods = xs at hentries
  induction xs with
  | nil => rfl
  | cons x xs ih =>
    obtain ⟨b, hb⟩ := hentries x List.mem_cons_self
    have hrest := ih fun y hy => hentries y (List.mem_cons_of_mem x hy)
    rw [List.filterMap_cons, hb]
    dsimp only
    rw [List.find?_cons, List.lookup_cons, Bool.beq_comm]
    cases m == x.info.id with
    | true => rw [Option.map_some, Option.map_some, hb]
    | false => exact hrest

/-- A process in which nothing is redirected keeps its ledger. -/
theorem Host.Untouched.keeps {p : Host ν} (h : p.Untouched) : p.Keeps (.of p) fun _ => none where
  timed := ⟨List.Pairwise.nil, fun _ hl => absurd hl List.not_mem_nil⟩
  numbered := List.Pairwise.nil
  used := fun _ hl => absurd hl List.not_mem_nil
  live := by rw [h.table]; rfl
  hooked := fun _ hl => absurd hl List.not_mem_nil
  entries := by
    intro m
    rw [Ledger.body?_of h, h.table]
    rfl
  slots := by
    intro m s hs
    rw [h.table] at hs
    exact absurd hs.symm (Option.some_ne_none _)
  unhooked := fun _ _ => rfl

end Interpose
