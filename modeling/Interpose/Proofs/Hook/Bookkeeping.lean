/-
Interpose.Proofs.Hook.Bookkeeping — the hook table's books are in order.

The table keeps two books, the live handles and the slots with their chains,
and neither is made from the other. That they agree is due to the ledger:
both are kept by it (`Keeps`), so that whatever is asked of handles and
layers is asked of lines. A line has one handle, one method and one place in
one chain, and a removal strikes one line out, whatever it answers.

Main statement: `performAll_booked`.
-/
import Mathlib.Algebra.GroupWithZero.Nat
import Interpose.Proofs.Hook.Reference
import Interpose.Proofs.Hook.Later

namespace Interpose

/-! ## Counting -/

/-- A key that is one member's own finds that member alone. -/
theorem filter_eq_singleton {α β : Type} [DecidableEq β] {l : List α} {f : α → β}
    (h : l.Pairwise fun a b => f a ≠ f b) {a : α} (ha : a ∈ l) :
    l.filter (f · = f a) = [a] := by
  induction l with
  | nil => exact absurd ha List.not_mem_nil
  | cons b l ih =>
    obtain ⟨hb, hl⟩ := List.pairwise_cons.mp h
    by_cases heq : f b = f a
    · have hab : a = b := by
        rcases List.mem_cons.mp ha with hab | hmem
        · exact hab
        · exact absurd heq (hb a hmem)
      subst hab
      have hrest : l.filter (f · = f a) = [] :=
        List.filter_eq_nil_iff.mpr fun c hc => by simpa using Ne.symm (hb c hc)
      rw [List.filter_cons_of_pos (by simp), hrest]
    · have hmem : a ∈ l := (List.mem_cons.mp ha).resolve_left fun hab => heq (congrArg f hab).symm
      rw [List.filter_cons_of_neg (by simpa using heq), ih hl hmem]

/-- Members counted key by key are all members, when no key is left out. -/
theorem length_eq_sum_filter {α β : Type} [DecidableEq β] {ks : List β} (hks : ks.Nodup)
    {l : List α} {f : α → β} (hmem : ∀ a ∈ l, f a ∈ ks) :
    l.length = (ks.map fun k => (l.filter (f · = k)).length).sum := by
  induction ks generalizing l with
  | nil =>
    rw [List.eq_nil_iff_forall_not_mem.mpr fun a ha => absurd (hmem a ha) List.not_mem_nil]
    rfl
  | cons k ks ih =>
    obtain ⟨hk, hks⟩ := List.nodup_cons.mp hks
    have hrest : ∀ a ∈ l.filter (f · ≠ k), f a ∈ ks := by
      intro a ha
      obtain ⟨hal, hak⟩ := List.mem_filter.mp ha
      exact (List.mem_cons.mp (hmem a hal)).resolve_left (of_decide_eq_true hak)
    have hothers : ks.map (fun k' => ((l.filter (f · ≠ k)).filter (f · = k')).length)
        = ks.map fun k' => (l.filter (f · = k')).length := by
      refine List.map_congr_left fun k' hk' => ?_
      have hne : k' ≠ k := fun h => hk (h ▸ hk')
      rw [List.filter_filter]
      congr 1
      refine List.filter_congr fun a _ => ?_
      by_cases h : f a = k' <;> simp [h, hne]
    rw [List.map_cons, List.sum_cons, ← hothers, ← ih hks hrest,
      List.length_eq_countP_add_countP (f · = k), List.countP_eq_length_filter,
      List.countP_eq_length_filter]
    simp

variable {ν : Type}

/-! ## Lines by handle and by method -/

namespace Ledger

variable {L : Ledger ν}

/-- A handle stands in one place of one chain. -/
theorem chain_filter_handle (n : L.Numbered) {l : Line ν} (hl : l ∈ L.lines) (m : MethodId) :
    (L.chain m).filter (·.handle = l.handle) = if m = l.method then [l] else [] := by
  have hne : L.lines.Pairwise fun a b => a.handle ≠ b.handle :=
    n.imp fun hab heq => Nat.ne_of_lt hab (congrArg HookHandle.raw heq)
  have hone := filter_eq_singleton hne hl
  rw [← chain_filter, chain, hone]
  by_cases hm : m = l.method
  · rw [if_pos hm, List.filter_cons_of_pos (by simp [hm]), List.filter_nil,
      List.mergeSort_singleton]
  · rw [if_neg hm, List.filter_cons_of_neg (by simpa using Ne.symm hm), List.filter_nil,
      List.mergeSort_nil]

/-- The lines that may be kept are those of all chains, for methods that have any. -/
theorem length_filter_eq_sum {ms : List MethodId} (hms : ms.Nodup)
    (hall : ∀ m, L.chain m ≠ [] → m ∈ ms) (keep : Line ν → Bool) :
    (L.lines.filter keep).length = (ms.map fun m => ((L.chain m).filter keep).length).sum := by
  have hmem : ∀ l ∈ L.lines.filter keep, l.method ∈ ms := by
    intro l hl
    refine hall l.method (List.ne_nil_of_mem (mem_chain.mpr ⟨(List.mem_filter.mp hl).1, rfl⟩))
  rw [length_eq_sum_filter hms hmem]
  congr 1
  refine List.map_congr_left fun m _ => ?_
  rw [← chain_filter, chain, List.length_mergeSort]

/-- A removal strikes out one line, if any has the handle. -/
theorem length_remove (n : L.Numbered) {l : Line ν} (hl : l ∈ L.lines) :
    (L.remove l.handle).lines.length + 1 = L.lines.length := by
  have hne : L.lines.Pairwise fun a b => a.handle ≠ b.handle :=
    n.imp fun hab heq => Nat.ne_of_lt hab (congrArg HookHandle.raw heq)
  have hone := congrArg List.length (filter_eq_singleton hne hl)
  have hsplit := List.length_eq_countP_add_countP (l := L.lines) (·.handle = l.handle)
  rw [List.countP_eq_length_filter, List.countP_eq_length_filter, hone] at hsplit
  rw [hsplit, Nat.add_comm, List.length_singleton, remove]
  simp

end Ledger

/-! ## Handles and layers of a kept ledger -/

namespace Host.Keeps

variable {p : Host ν} {L : Ledger ν} {elsewhere : MethodId → Option (Body ν)}

theorem layers_filter_handle (k : p.Keeps L elsewhere) {l : Line ν} (hl : l ∈ L.lines)
    (m : MethodId) :
    (p.layers m).filter (·.handle = l.handle) = if m = l.method then [l.layer] else [] := by
  rw [k.layers, List.filter_map]
  show List.map Line.layer ((L.chain m).filter (·.handle = l.handle)) = _
  rw [Ledger.chain_filter_handle k.numbered hl]
  split <;> rfl

theorem size_eq (k : p.Keeps L elsewhere) : p.table.size = L.lines.length := by
  rw [HookTable.size, k.live, List.length_map]

/-- Layers that may be kept, method by method, are lines that may be kept. -/
theorem sum_layers (k : p.Keeps L elsewhere) {ms : List MethodId} (hms : ms.Nodup)
    (hall : ∀ m, p.layers m ≠ [] → m ∈ ms) (keep : Line ν → Bool) (keep' : Layer ν → Bool)
    (hkeep : ∀ l, keep l = keep' l.layer) :
    (ms.map fun m => ((p.layers m).filter keep').length).sum = (L.lines.filter keep).length := by
  have hall' : ∀ m, L.chain m ≠ [] → m ∈ ms := by
    intro m hm
    refine hall m ?_
    rw [k.layers]
    exact fun hnil => hm (List.map_eq_nil_iff.mp hnil)
  rw [Ledger.length_filter_eq_sum hms hall']
  congr 1
  refine List.map_congr_left fun m _ => ?_
  rw [k.layers, List.filter_map, List.length_map]
  congr 2
  funext l
  exact (hkeep l).symm

/-- No two layers of a method may change places. -/
theorem sorted (k : p.Keeps L elsewhere) (m : MethodId) :
    (p.layers m).Pairwise fun a b =>
      b.priority < a.priority ∨ (a.priority = b.priority ∧ a.order < b.order) := by
  have hsorted : (L.chain m).Pairwise fun a b => a.before b = true :=
    List.pairwise_mergeSort Line.before_trans Line.before_total _
  have hne : (L.chain m).Pairwise fun a b => a.handle.raw ≠ b.handle.raw := by
    refine ((List.mergeSort_perm _ _).pairwise_iff fun h => h.symm).mpr ?_
    exact (k.numbered.imp Nat.ne_of_lt).filter _
  rw [k.layers, List.pairwise_map]
  refine (List.pairwise_and_iff.mpr ⟨hsorted, hne⟩).imp_of_mem fun {a b} ha hb hab => ?_
  obtain ⟨hbefore, hraw⟩ := hab
  rw [Ledger.before_layer k.timed k.numbered a (Ledger.mem_chain.mp ha).1 b
    (Ledger.mem_chain.mp hb).1, Layer.before] at hbefore
  rcases (Bool.or_eq_true _ _).mp hbefore with hlt | hle
  · exact .inl (of_decide_eq_true hlt)
  · obtain ⟨heq, hord⟩ := (Bool.and_eq_true _ _).mp hle
    exact .inr ⟨eq_of_beq heq, Nat.lt_of_le_of_ne (of_decide_eq_true hord) hraw⟩

/-! ## Removals -/

theorem layers_after_remove (k : p.Keeps L elsewhere) (h : HookHandle) (m : MethodId) :
    (p.remove h).2.layers m = (p.layers m).filter (·.handle ≠ h) := by
  obtain ⟨_, k', _⟩ := k.remove h
  rw [k'.layers, k.layers, layers_remove]

theorem methodOf?_after_remove (k : p.Keeps L elsewhere) (h a : HookHandle) :
    (p.remove h).2.table.methodOf? a = if a = h then none else p.table.methodOf? a := by
  obtain ⟨_, k', _⟩ := k.remove h
  have hlive : (p.remove h).2.table.live = p.table.live.filter (·.1 ≠ h) :=
    k'.live.trans (k.live_remove h).symm
  rw [HookTable.methodOf?, hlive, lookup_filter_ne, HookTable.methodOf?]

/-- Only a handle that is not live is unknown, and removing it does nothing. -/
theorem remove_unknown (k : p.Keeps L elsewhere) (h : HookHandle) :
    ((p.remove h).1 = .error (.unknownHandle h) ↔ p.table.methodOf? h = none) ∧
      (p.table.methodOf? h = none → (p.remove h).2 = p) := by
  rcases k.remove_cases h with ⟨hne, heq⟩ | ⟨l, hl, rfl, hgone⟩
  · have hnone : p.table.methodOf? h = none := by
      cases hm : p.table.methodOf? h with
      | none => rfl
      | some m =>
        obtain ⟨l, hl, hlh, -⟩ := k.methodOf?_eq_some hm
        exact absurd hlh (hne l hl)
    rw [heq, hnone]
    simp
  · have hsome : p.table.methodOf? l.handle = some l.method :=
      (k.methodOf?_iff l.handle l.method).mpr ⟨l, hl, rfl, rfl⟩
    rw [hsome]
    rcases hgone with ⟨r, s, _, hknown, _, heq⟩ | ⟨b, _, _, heq⟩
    · rw [heq]
      simp [hknown l.handle]
    · rw [heq]
      simp

/-- As many removals are counted as lines are struck out. -/
theorem removeAll_count (k : p.Keeps L elsewhere) (hs : List HookHandle) :
    (p.removeAll hs).1 + (L.removeAll hs).lines.length = L.lines.length := by
  induction hs generalizing p L elsewhere with
  | nil => rw [Ledger.removeAll_nil, Host.removeAll, Nat.zero_add]
  | cons h hs ih =>
    obtain ⟨elsewhere', k', _⟩ := k.remove h
    have hrest := ih k'
    rw [Ledger.removeAll_cons]
    rcases k.remove_cases h with ⟨hne, heq⟩ | ⟨l, hl, rfl, hgone⟩
    · rw [Ledger.remove_of_forall_ne hne] at hrest ⊢
      rw [heq] at hrest
      rw [Host.removeAll, heq]
      exact hrest
    · have hlen := Ledger.length_remove k.numbered hl
      have hcounted : (p.removeAll (l.handle :: hs)).1
          = ((p.remove l.handle).2.removeAll hs).1 + 1 := by
        rcases hgone with ⟨r, s, _, hknown, _, heq⟩ | ⟨b, _, _, heq⟩
        · rw [Host.removeAll, heq]
          split
          · rename_i g _ hg
            exact absurd (congrArg Prod.fst hg) (hknown g)
          · rename_i hg
            cases hg
            rfl
        · rw [Host.removeAll, heq]
      rw [hcounted]
      omega

/-- **A module's removal counts its layers, takes them all and no other.** -/
theorem removeModule_eq (k : p.Keeps L elsewhere) (moduleId : String) :
    (p.removeModule moduleId).1 = (L.lines.filter (·.moduleId = moduleId)).length ∧
      ∀ m, (p.removeModule moduleId).2.layers m
        = (p.layers m).filter (·.moduleId ≠ moduleId) := by
  constructor
  · have hcount := k.removeAll_count (p.ownedBy moduleId)
    have hsplit := List.length_eq_countP_add_countP (l := L.lines) (·.moduleId = moduleId)
    rw [List.countP_eq_length_filter, List.countP_eq_length_filter] at hsplit
    rw [k.removeAll_ownedBy, hsplit, Ledger.removeModule] at hcount
    simp only [decide_not, decide_eq_true_eq] at hcount
    exact Nat.add_right_cancel hcount
  · intro m
    obtain ⟨_, k', _⟩ := k.removeModule moduleId
    rw [k'.layers, k.layers, List.filter_map, Ledger.removeModule, Ledger.chain_filter]
    rfl

/-! ## What is below the layers -/

theorem base?_eq (k : p.Keeps L elsewhere) {h : HookHandle} {m : MethodId}
    (hm : p.table.methodOf? h = some m) : ∃ b, L.body? m = some b ∧ p.base? h = some (.body b) := by
  obtain ⟨l, hl, -, rfl⟩ := k.methodOf?_eq_some hm
  cases hs : p.table.slot? l.method with
  | none => exact absurd hs (k.hooked l hl)
  | some s =>
    obtain ⟨b, hb, hslot⟩ := k.slots l.method s hs
    refine ⟨b, hb, ?_⟩
    rw [base?, hm, Option.bind_some, Host.slot?, hs, Option.bind_some, hslot]
    rfl

end Host.Keeps

/-! ## Handles that were issued -/

/-- The handle that an operation was answered, if it was answered one. -/
def TableOp.issued? : (op : TableOp ν) → op.Answer → Option HookHandle
  | .install .., .ok h => some h
  | .install .., .error _ => none
  | .declare .., _ | .setForm .., _ | .remove _, _ | .removeModule _, _ | .refuse _, _ => none

namespace Host

/-- The handles that operations are answered, one after the other. -/
def issued : List (TableOp ν) → Host ν → List HookHandle
  | [], _ => []
  | op :: ops, p => (op.issued? (p.perform op).1).toList ++ issued ops (p.perform op).2

/-- An operation draws handles, and a handle it is answered is the next one drawn. -/
theorem perform_issued (p : Host ν) (op : TableOp ν) :
    p.table.nextHandle ≤ (p.perform op).2.table.nextHandle ∧
      ∀ h ∈ op.issued? (p.perform op).1, p.table.nextHandle = h.raw ∧
        h.raw < (p.perform op).2.table.nextHandle := by
  cases op with
  | declare className name params ret flags form body =>
    exact ⟨Nat.le_refl _, fun _ h => absurd h (Option.not_mem_none _)⟩
  | setForm m form => exact ⟨Nat.le_refl _, fun _ h => absurd h (Option.not_mem_none _)⟩
  | install m hook priority moduleId =>
    refine ⟨nextHandle_install p m hook priority moduleId, ?_⟩
    show ∀ h ∈ (TableOp.install m hook priority moduleId).issued?
        (p.install m hook priority moduleId).1, _ ∧
      h.raw < (p.install m hook priority moduleId).2.table.nextHandle
    rcases p.install_cases m hook priority moduleId with
      ⟨e, q, i, heq, _⟩ | ⟨s, _, heq⟩ | ⟨_, q, x, hi, _, heq⟩
    · rw [heq]
      exact fun h hh => absurd hh (Option.not_mem_none _)
    · rw [heq]
      rintro h ⟨⟩
      exact ⟨rfl, Nat.lt_succ_self _⟩
    · rw [heq]
      rintro h ⟨⟩
      refine ⟨rfl, ?_⟩
      show p.table.nextHandle < q.table.nextHandle
      rw [hi.table]
      exact Nat.lt_succ_self _
  | remove h =>
    exact ⟨Nat.le_of_eq (nextHandle_remove p h).symm, fun _ h => absurd h (Option.not_mem_none _)⟩
  | removeModule moduleId =>
    exact ⟨Nat.le_of_eq (nextHandle_removeAll p _).symm,
      fun _ h => absurd h (Option.not_mem_none _)⟩
  | refuse refusals => exact ⟨Nat.le_refl _, fun _ h => absurd h (Option.not_mem_none _)⟩

theorem le_of_mem_issued {ops : List (TableOp ν)} {p : Host ν} {h : HookHandle}
    (hh : h ∈ issued ops p) : p.table.nextHandle ≤ h.raw := by
  induction ops generalizing p with
  | nil => exact absurd hh List.not_mem_nil
  | cons op ops ih =>
    obtain ⟨hdrawn, hissued⟩ := p.perform_issued op
    rcases List.mem_append.mp hh with hone | hrest
    · exact Nat.le_of_eq (hissued h (Option.mem_toList.mp hone)).1
    · exact Nat.le_trans hdrawn (ih hrest)

/-- Handles are issued in rising order. -/
theorem issued_rising (ops : List (TableOp ν)) (p : Host ν) :
    (issued ops p).Pairwise fun a b => a.raw < b.raw := by
  induction ops generalizing p with
  | nil => exact .nil
  | cons op ops ih =>
    refine List.pairwise_append.mpr ⟨?_, ih _, ?_⟩
    · cases op.issued? (p.perform op).1 with
      | none => exact .nil
      | some h => exact List.pairwise_singleton _ _
    · intro a ha b hb
      exact Nat.lt_of_lt_of_le ((p.perform_issued op).2 a (Option.mem_toList.mp ha)).2
        (le_of_mem_issued hb)

/-- The handle of every line was issued. -/
theorem handles_issued (ops : List (TableOp ν)) (p : Host ν) (L : Ledger ν) :
    ∀ l ∈ (performAll ops p L).2.lines, l ∈ L.lines ∨ l.handle ∈ issued ops p := by
  induction ops generalizing p L with
  | nil => exact fun l hl => .inl hl
  | cons op ops ih =>
    intro l hl
    rcases ih (p.perform op).2 (L.write op (p.perform op).1) l hl with hbefore | hlater
    · have hwritten : ∀ (a : op.Answer), l ∈ (L.write op a).lines →
          l ∈ L.lines ∨ l.handle ∈ op.issued? a := by
        intro a hl
        cases op with
        | install m hook priority moduleId =>
          cases a with
          | error e => exact .inl hl
          | ok h =>
            rcases List.mem_append.mp hl with hl | hl
            · exact .inl hl
            · rw [List.mem_singleton.mp hl]
              exact .inr rfl
        | remove h => exact .inl (List.mem_filter.mp hl).1
        | removeModule moduleId => exact .inl (List.mem_filter.mp hl).1
        | _ => exact .inl hl
      rcases hwritten _ hbefore with hl | hl
      · exact .inl hl
      · exact .inr (List.mem_append_left _ (Option.mem_toList.mpr hl))
    · exact .inr (List.mem_append_right _ hlater)

/-! ## The books -/

/-- What the table's books say of a process that was operated on. The ledger
has a line for every layer that was installed and not removed since. -/
structure Booked (q : Host ν) (L : Ledger ν) (issued : List HookHandle) : Prop where
  /-- No handle is issued twice. -/
  once : issued.Pairwise fun a b => a.raw < b.raw
  /-- The live handles are those that were installed and not removed since,
  each on the method it was installed on. -/
  live : ∀ h m, q.table.methodOf? h = some m ↔ ∃ l ∈ L.lines, l.handle = h ∧ l.method = m
  granted : ∀ l ∈ L.lines, l.handle ∈ issued
  /-- A live handle has one layer, on its method. -/
  single : ∀ h m, q.table.methodOf? h = some m → ∃ l : Layer ν, l.handle = h ∧
    ∀ a, (q.layers a).filter (·.handle = h) = if a = m then [l] else []
  /-- Each layer's handle is live on its method. -/
  held : ∀ m, ∀ l ∈ q.layers m, q.table.methodOf? l.handle = some m
  /-- The table's size is the number of all layers. -/
  size : ∀ ms : List MethodId, ms.Nodup → (∀ m, q.layers m ≠ [] → m ∈ ms) →
    q.table.size = (ms.map fun m => (q.layers m).length).sum
  /-- Higher priorities come first, and earlier installs among equals. -/
  sorted : ∀ m, (q.layers m).Pairwise fun a b => b.priority < a.priority ∨
    (a.priority = b.priority ∧ a.handle.raw < b.handle.raw)
  /-- A handle is unknown exactly if it is not live, and then nothing changes. -/
  unknown : ∀ h, ((q.remove h).1 = .error (.unknownHandle h) ↔ q.table.methodOf? h = none) ∧
    (q.table.methodOf? h = none → (q.remove h).2 = q)
  /-- Whatever a removal answers, its layer is gone, and no other. -/
  removed : ∀ h, (∀ m, (q.remove h).2.layers m = (q.layers m).filter (·.handle ≠ h)) ∧
    ∀ a, (q.remove h).2.table.methodOf? a = if a = h then none else q.table.methodOf? a
  /-- Removing a module counts its layers; all of them are gone, and the
  others stay in their order. -/
  removedModule : ∀ moduleId, (∀ ms : List MethodId, ms.Nodup →
      (∀ m, q.layers m ≠ [] → m ∈ ms) → (q.removeModule moduleId).1
        = (ms.map fun m => ((q.layers m).filter (·.moduleId = moduleId)).length).sum) ∧
    ∀ m, (q.removeModule moduleId).2.layers m = (q.layers m).filter (·.moduleId ≠ moduleId)
  /-- A live handle calls the body that its method was declared with. -/
  original : ∀ h m, q.table.methodOf? h = some m → ∃ b, L.body? m = some b ∧
    ∀ depth c, callBaseWith (enter (depth + 1)) h c q = exec (enter depth) (b c) () q
  /-- Any other handle is an illegal state. -/
  illegal : ∀ h, q.table.methodOf? h = none → ∀ e c, callBaseWith e h c q = some (.error {
    className := "IllegalStateException"
    message := (HookError.unknownHandle h).message }, q)

theorem Keeps.booked {q : Host ν} {L : Ledger ν} {elsewhere : MethodId → Option (Body ν)}
    {issued : List HookHandle} (k : q.Keeps L elsewhere)
    (once : issued.Pairwise fun a b => a.raw < b.raw) (granted : ∀ l ∈ L.lines, l.handle ∈ issued) :
    Booked q L issued where
  once := once
  live := k.methodOf?_iff
  granted := granted
  single := by
    intro h m hm
    obtain ⟨l, hl, rfl, rfl⟩ := k.methodOf?_eq_some hm
    exact ⟨l.layer, rfl, k.layers_filter_handle hl⟩
  held := by
    intro m l hl
    rw [k.layers] at hl
    obtain ⟨x, hx, rfl⟩ := List.mem_map.mp hl
    obtain ⟨hmem, hm⟩ := Ledger.mem_chain.mp hx
    exact (k.methodOf?_iff _ _).mpr ⟨x, hmem, rfl, hm⟩
  size := by
    intro ms hms hall
    have hself {α : Type} (l : List α) : l.filter (fun _ => true) = l :=
      List.filter_eq_self.mpr fun _ _ => rfl
    have hsum := k.sum_layers hms hall (fun _ => true) (fun _ => true) fun _ => rfl
    simp only [hself] at hsum
    rw [k.size_eq, hsum]
  sorted := by
    intro m
    refine (k.sorted m).imp_of_mem fun {a b} ha hb hab => ?_
    rw [k.layers] at ha hb
    obtain ⟨x, _, rfl⟩ := List.mem_map.mp ha
    obtain ⟨y, _, rfl⟩ := List.mem_map.mp hb
    exact hab
  unknown := k.remove_unknown
  removed := fun h => ⟨k.layers_after_remove h, k.methodOf?_after_remove h⟩
  removedModule := by
    intro moduleId
    obtain ⟨hcount, hlayers⟩ := k.removeModule_eq moduleId
    refine ⟨fun ms hms hall => ?_, hlayers⟩
    rw [hcount, k.sum_layers hms hall (·.moduleId = moduleId) _ fun _ => rfl]
  original := by
    intro h m hm
    obtain ⟨b, hb, hbase⟩ := k.base?_eq hm
    refine ⟨b, hb, fun depth c => ?_⟩
    rw [callBaseWith, hbase]
    rfl
  illegal := by
    intro h hnone e c
    have hbase : q.base? h = none := by rw [base?, hnone]; rfl
    rw [callBaseWith, hbase]

/-- **The books are in order** after whatever was done to a process in which
nothing was redirected: installs that were refused, removals that the runtime
refused to follow, and whole modules removed. -/
theorem performAll_booked (p₀ : Host ν) (h₀ : p₀.Untouched) (ops : List (TableOp ν)) :
    Booked (performAll ops p₀ (.of p₀)).1 (performAll ops p₀ (.of p₀)).2 (issued ops p₀) := by
  refine (performAll_keeps ops h₀.keeps).booked (issued_rising ops p₀) fun l hl => ?_
  rcases handles_issued ops p₀ (.of p₀) l hl with hl | hl
  · exact absurd hl List.not_mem_nil
  · exact hl

/-- A removal that the runtime refuses to follow takes the layer all the same,
and the next layer, in the slot left behind, has a handle of its own. -/
theorem performAll_booked_reused :
    let ops : List (TableOp Unit) := [
      .install ⟨1⟩ (answering 1) 0 "a", .refuse fun _ => { restore := some .unknown },
      .remove ⟨1⟩, .install ⟨1⟩ (answering 2) 0 "b"]
    let q := (performAll ops oneMethod (.of oneMethod)).1
    oneMethod.Untouched ∧
      Booked q (performAll ops oneMethod (.of oneMethod)).2 (issued ops oneMethod) ∧
      issued ops oneMethod = [⟨1⟩, ⟨2⟩] ∧ q.table.methodOf? ⟨1⟩ = none ∧
      q.table.methodOf? ⟨2⟩ = some ⟨1⟩ ∧ (q.remove ⟨1⟩).1 = .error (.unknownHandle ⟨1⟩) := by
  intro ops q
  have hbooked := performAll_booked oneMethod oneMethod_untouched ops
  exact ⟨oneMethod_untouched, hbooked, rfl, rfl, rfl, (hbooked.unknown ⟨1⟩).1.mpr rfl⟩

end Host

end Interpose
