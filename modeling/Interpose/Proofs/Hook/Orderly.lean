/-
Interpose.Proofs.Hook.Orderly — what code can make of a process that refuses nothing.

`Sound` is a kept ledger with two facts more: every slot carries a layer,
and the runtime refuses nothing. The first is due to the second, because
only a restore that was refused leaves a slot without layers.

Code may do anything to a process that a program can ask for: hook and
unhook, point methods at code of its own behind the hook table's back, run
initialisers and call what it likes. A process is orderly if it keeps some
ledger soundly, and nothing that code does makes it disorderly, because no
request does (`orderly_carried`).

Main statement: `exec_orderly`.
-/
import Interpose.Proofs.Hook.Keeping
import Interpose.Proofs.Hook.Running

namespace Interpose.Host

variable {ν : Type}

/-! ## Soundness -/

/-- A ledger that is kept where every slot carries a layer and nothing is refused. -/
structure Sound (p : Host ν) (L : Ledger ν) (elsewhere : MethodId → Option (Body ν)) : Prop
    extends p.Keeps L elsewhere where
  tight : ∀ m, p.table.slot? m ≠ none → L.chain m ≠ []
  willing : ∀ m, p.refusals m = {}

namespace Sound

variable {p q : Host ν} {L : Ledger ν} {elsewhere : MethodId → Option (Body ν)}

theorem same (k : p.Sound L elsewhere) {i : Nat} (hslots : q.slots = p.slots)
    (htable : q.table = { p.table with nextHandle := p.table.nextHandle + i })
    (hentries : ∀ m, (q.method? m).map (·.entry) = (p.method? m).map (·.entry))
    (hrefusals : q.refusals = p.refusals) : q.Sound L elsewhere where
  toKeeps := k.toKeeps.same hslots htable hentries
  tight := by
    intro m hs
    rw [htable] at hs
    exact k.tight m hs
  willing := fun m => by rw [hrefusals]; exact k.willing m

theorem idle (k : p.Sound L elsewhere) {i : Nat} (h : Idle i p q) : q.Sound L elsewhere :=
  k.same h.slots h.table h.entries h.others.refusals

/-- A method is hooked exactly when its chain is not empty. -/
theorem slot?_eq_none_iff (k : p.Sound L elsewhere) (m : MethodId) :
    p.table.slot? m = none ↔ L.chain m = [] := by
  constructor
  · exact k.chain_eq_nil
  · intro hnil
    cases hs : p.table.slot? m with
    | none => rfl
    | some s => exact absurd hnil (k.tight m (by rw [hs]; exact Option.some_ne_none s))

theorem install (k : p.Sound L elsewhere) (m : MethodId) (hook : Hook ν) (priority : Int32)
    (moduleId : String) :
    (∃ e q, p.install m hook priority moduleId = (.error e, q) ∧ q.Sound L elsewhere) ∨
    (∃ q, p.install m hook priority moduleId = (.ok ⟨p.table.nextHandle⟩, q) ∧
      q.Sound (L.install ⟨p.table.nextHandle⟩ m hook priority moduleId) elsewhere) := by
  rcases k.toKeeps.install m hook priority moduleId with ⟨e, q, i, heq, _, hi⟩ | ⟨q, heq, hq⟩
  · exact .inl ⟨e, q, heq, k.idle hi⟩
  · refine .inr ⟨q, heq, hq, ?_, ?_⟩
    · intro a hs
      by_cases ha : a = m
      · subst ha
        have hnew : L.newLine ⟨p.table.nextHandle⟩ a hook priority moduleId
            ∈ (L.install ⟨p.table.nextHandle⟩ a hook priority moduleId).lines :=
          List.mem_concat_self
        exact List.ne_nil_of_mem (Ledger.mem_chain.mpr ⟨hnew, rfl⟩)
      · have hslot := p.slot?_install m hook priority moduleId ha
        rw [heq] at hslot
        rw [Ledger.chain_install k.timed, if_neg ha]
        exact k.tight a (hslot ▸ hs)
    · have hrefusals := (p.hooksOnly_install m hook priority moduleId).refusals
      rw [heq] at hrefusals
      exact fun a => hrefusals ▸ k.willing a

theorem remove (k : p.Sound L elsewhere) (h : HookHandle) :
    ∃ elsewhere', (p.remove h).2.Sound (L.remove h) elsewhere' ∧
      Undone (L.remove h) elsewhere elsewhere' := by
  obtain ⟨elsewhere', hq, hundone⟩ := k.toKeeps.remove h
  refine ⟨elsewhere', ⟨hq, ?_, fun m => ?_⟩, hundone⟩
  · rcases k.remove_cases h with ⟨hne, heq⟩ | ⟨l, hl, rfl, hgone⟩
    · rw [heq, Ledger.remove_of_forall_ne hne]
      exact k.tight
    · rcases hgone with ⟨r, s, hs, _, hrefused, heq⟩ | ⟨b, _, _, heq⟩
      · rw [heq]
        intro a ha
        by_cases ham : a = l.method
        · subst ham
          intro hnil
          refine hrefused hnil ?_
          rw [k.willing]
        · rw [k.chain_remove_ne hl ham]
          exact k.tight a ha
      · rw [heq]
        intro a ha
        rw [slot?_closeSlot] at ha
        by_cases ham : a = l.method
        · rw [if_pos ham] at ha
          exact absurd rfl ha
        · rw [if_neg ham] at ha
          rw [k.chain_remove_ne hl ham]
          exact k.tight a ha
  · rw [(p.hooksOnly_remove h).refusals]
    exact k.willing m

theorem removeAll (k : p.Sound L elsewhere) (hs : List HookHandle) :
    ∃ elsewhere', (p.removeAll hs).2.Sound (L.removeAll hs) elsewhere' ∧
      Undone (L.removeAll hs) elsewhere elsewhere' :=
  removeAll_induct (fun _ _ _ h k => k.remove h) hs k

theorem redirect (k : p.Sound L elsewhere) {m : MethodId} {b : Body ν}
    (hq : p.redirect m (.body b) = .ok q) :
    ∃ bodies elsewhere', q.Sound { L with bodies } elsewhere' ∧
      ∀ a, a ≠ m → Ledger.body? { L with bodies } a = L.body? a := by
  obtain ⟨bodies, elsewhere', hkept, hothers⟩ := k.toKeeps.redirect hq
  refine ⟨bodies, elsewhere', ⟨hkept, ?_, ?_⟩, hothers⟩
  · rw [redirect_eq_ok hq]
    exact k.tight
  · rw [redirect_eq_ok hq]
    exact k.willing

end Sound

/-! ## Code that runs -/

/-- Some ledger is soundly kept. -/
def Orderly (p : Host ν) : Prop := ∃ L elsewhere, p.Sound L elsewhere

/-- What is not a part of methods, slots, table and refusals is free to change. -/
theorem Orderly.same {p q : Host ν} (h : p.Orderly) (hm : q.methods = p.methods)
    (hs : q.slots = p.slots) (ht : q.table = p.table) (hr : q.refusals = p.refusals) :
    q.Orderly := by
  obtain ⟨L, elsewhere, k⟩ := h
  exact ⟨L, elsewhere, k.same (i := 0) hs ht (fun m => by rw [method?, method?, hm]) hr⟩

theorem Orderly.install {p : Host ν} (h : p.Orderly) (m : MethodId) (hook : Hook ν)
    (priority : Int32) (moduleId : String) :
    (p.install m hook priority moduleId).2.Orderly := by
  obtain ⟨L, elsewhere, k⟩ := h
  rcases k.install m hook priority moduleId with ⟨e, q, heq, hq⟩ | ⟨q, heq, hq⟩
  · rw [heq]
    exact ⟨_, _, hq⟩
  · rw [heq]
    exact ⟨_, _, hq⟩

theorem Orderly.redirect {p q : Host ν} (h : p.Orderly) {m : MethodId} {b : Body ν}
    (hq : p.redirect m (.body b) = .ok q) : q.Orderly := by
  obtain ⟨L, elsewhere, k⟩ := h
  obtain ⟨bodies, elsewhere', hsound, _⟩ := k.redirect hq
  exact ⟨_, _, hsound⟩

theorem Orderly.answer {p : Host ν} (h : p.Orderly) (q : Query) : (p.answer q).2.Orderly := by
  obtain ⟨L, elsewhere, k⟩ := h
  cases q with
  | remove g =>
    obtain ⟨elsewhere', hq, _⟩ := k.remove g
    exact ⟨_, _, hq⟩
  | removeModule moduleId =>
    obtain ⟨elsewhere', hq, _⟩ := k.removeAll (p.ownedBy moduleId)
    exact ⟨_, _, hq⟩
  | setForm m form =>
    refine ⟨L, elsewhere, k.same (i := 0) rfl rfl (fun a => ?_) rfl⟩
    exact entry_setForm p m a form
  | deoptimize m => exact ⟨_, _, k.idle (p.idle_deoptimize m)⟩
  | enterApp => exact ⟨_, _, k.same (i := 0) rfl rfl (fun _ => rfl) rfl⟩
  | count c => exact ⟨_, _, k.same (i := 0) rfl rfl (fun _ => rfl) rfl⟩
  | look => exact ⟨_, _, k⟩

/-- No request makes a process disorderly. -/
theorem orderly_carried : Carried (ν := ν) .any fun p q => p.Orderly → q.Orderly where
  refl := fun _ hp => hp
  trans := fun _ _ _ hpq hqr hp => hqr (hpq hp)
  note := fun _ _ hp => hp.same rfl rfl rfl rfl
  setInit := fun _ _ _ hp => hp.same rfl rfl rfl rfl
  answer := fun _ q _ hp => hp.answer q
  redirect := fun _ _ _ _ _ hq hp => hp.redirect hq
  install := fun _ _ m hook priority moduleId hp => hp.install m hook priority moduleId

/-- **Code leaves an orderly process orderly**, whatever it asks for and
however deep its calls may nest. -/
theorem exec_orderly {depth : Nat} (code : Program ν .plain) {p : Host ν} {r : Outcome × Host ν}
    (hp : p.Orderly) (h : exec (enter depth) code () p = some r) : r.2.Orderly :=
  run_carries orderly_carried code h hp

end Interpose.Host
