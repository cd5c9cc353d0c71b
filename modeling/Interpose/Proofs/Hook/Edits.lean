/-
Interpose.Proofs.Hook.Edits — what one edit does to the slots that calls have read.

A thread changes a process in few ways (`Edit`, `step_edit`), and none of
them does much to a slot. Its method and what is below its layers never
change. Its layers change only while it is its method's slot; taking the
last one off closes it and leaves it as it is, and no slot is opened again.
So a call may keep the number of a slot for as long as it likes: what it
finds there is the chain of the method, or was when the slot was closed.

Main statement: `Keeps.onward`.
-/
import Interpose.Proofs.Hook.Keeping
import Interpose.Proofs.Host.Threads

namespace Interpose

variable {ν : Type}

namespace Host

variable {p q : Host ν} {L : Ledger ν} {elsewhere : MethodId → Option (Body ν)}

/-! ## Edits -/

/-- What one step of a thread can do to a process. -/
inductive Edit (p : Host ν) : Host ν → Prop
  /-- Nothing that has to do with hooks. -/
  | still {q : Host ν} (slots : q.slots = p.slots) (table : q.table = p.table)
      (entries : ∀ m, (q.method? m).map (·.entry) = (p.method? m).map (·.entry)) : Edit p q
  | redirected {m : MethodId} {b : Body ν} {q : Host ν} (h : p.redirect m (.body b) = .ok q) :
      Edit p q
  | installed (m : MethodId) (hook : Hook ν) (priority : Int32) (moduleId : String) :
      Edit p (p.install m hook priority moduleId).2
  | removed (h : HookHandle) : Edit p (p.remove h).2

theorem Edit.refl (p : Host ν) : Edit p p := .still rfl rfl fun _ => rfl

theorem Edit.idle (h : Idle 0 p q) : Edit p q := .still h.slots h.table h.entries

/-- An edit leaves a process that keeps some ledger. -/
theorem Keeps.edit (k : p.Keeps L elsewhere) (h : Edit p q) :
    ∃ L' elsewhere', q.Keeps L' elsewhere' := by
  cases h with
  | still slots table entries => exact ⟨_, _, k.same (i := 0) slots table entries⟩
  | redirected hq =>
    obtain ⟨bodies, elsewhere', hkept, _⟩ := k.redirect hq
    exact ⟨_, _, hkept⟩
  | installed m hook priority moduleId =>
    rcases k.install m hook priority moduleId with ⟨e, q, i, heq, hq, _⟩ | ⟨q, heq, hq⟩
    · rw [heq]
      exact ⟨_, _, hq⟩
    · rw [heq]
      exact ⟨_, _, hq⟩
  | removed g =>
    obtain ⟨elsewhere', hq, _⟩ := k.remove g
    exact ⟨_, _, hq⟩

/-! ## Slots -/

/-- What slots are in a process that was another before an edit. -/
structure Onward (p q : Host ν) : Prop where
  /-- A slot stays what it is, and its layers do, unless it is the slot of its
  method before and after. -/
  kept : ∀ s slot, p.slots[s]? = some slot → ∃ slot', q.slots[s]? = some slot' ∧
    slot'.method = slot.method ∧ slot'.base = slot.base ∧
    (slot'.layers = slot.layers ∨
      p.table.slot? slot.method = some s ∧ q.table.slot? slot.method = some s)
  /-- The slot of a method was its slot before, or is a new one, above what
  the method did until then. -/
  opened : ∀ m s, q.table.slot? m = some s → p.table.slot? m = some s ∨
    (p.table.slot? m = none ∧ p.slots.length ≤ s ∧ ∃ slot, q.slots[s]? = some slot ∧
      slot.method = m ∧ (p.method? m).map (·.entry) = some slot.base)

theorem onward_of_slots (hslots : q.slots = p.slots)
    (hslot? : ∀ m s, q.table.slot? m = some s → p.table.slot? m = some s) : Onward p q where
  kept s slot h := ⟨slot, by rw [hslots]; exact h, rfl, rfl, .inl rfl⟩
  opened m s h := .inl (hslot? m s h)

/-- Changing the layers of a method's slot. -/
theorem Keeps.onward_modify (k : p.Keeps L elsewhere) {m : MethodId} {s : Nat}
    (hs : p.table.slot? m = some s) (f : Slot ν → List (Layer ν))
    (hslots : q.slots = p.slots.modify s fun x => { x with layers := f x })
    (hslot? : ∀ a, q.table.slot? a = p.table.slot? a) : Onward p q where
  kept t slot h := by
    by_cases ht : t = s
    · subst ht
      obtain ⟨b, -, hslot⟩ := k.slots m t hs
      have hmethod : slot.method = m := by
        rw [h] at hslot
        rw [Option.some.inj hslot]
      refine ⟨{ slot with layers := f slot }, ?_, rfl, rfl, .inr ?_⟩
      · rw [hslots, List.getElem?_modify_eq, h]
        rfl
      · rw [hmethod, hslot?]
        exact ⟨hs, hs⟩
    · refine ⟨slot, ?_, rfl, rfl, .inl rfl⟩
      rw [hslots, List.getElem?_modify_ne _ _ (Ne.symm ht), h]
  opened a t h := .inl (hslot? a ▸ h)

/-- **All that an edit does to slots.** -/
theorem Keeps.onward (k : p.Keeps L elsewhere) (h : Edit p q) : Onward p q := by
  cases h with
  | still slots table entries => exact onward_of_slots slots fun m s h => table ▸ h
  | redirected hq =>
    rw [redirect_eq_ok hq]
    exact onward_of_slots rfl fun _ _ h => h
  | installed m hook priority moduleId =>
    rcases p.install_cases m hook priority moduleId with
      ⟨e, q, i, heq, hi⟩ | ⟨s, hs, heq⟩ | ⟨hs, q, x, hi, hx, heq⟩
    · rw [heq]
      exact onward_of_slots hi.slots fun a s h => (hi.slot? a) ▸ h
    · rw [heq]
      exact k.onward_modify hs _ rfl fun _ => rfl
    · rw [heq]
      have hlen : q.slots.length = p.slots.length := by rw [hi.slots]
      have hslot? : ∀ a, HookTable.slot?
          { q.table with slotOf := q.table.slotOf ++ [(m, q.slots.length)] } a
          = if a = m then some q.slots.length else q.table.slot? a :=
        fun a => slot?_append q.table m a q.slots.length ((hi.slot? m).trans hs)
      constructor
      case kept =>
        intro s slot h
        have hlt : s < q.slots.length := by
          rw [hlen]
          exact (List.getElem?_eq_some_iff.mp h).1
        refine ⟨slot, ?_, rfl, rfl, .inl rfl⟩
        show (q.slots ++ _)[s]? = some slot
        rw [List.getElem?_append_left hlt, hi.slots, h]
      case opened =>
        intro a s h
        have hs' := (hslot? a).symm.trans h
        by_cases ha : a = m
        · subst ha
          rw [if_pos rfl] at hs'
          cases hs'
          refine .inr ⟨hs, Nat.le_of_eq hlen.symm, _, List.getElem?_concat_length .., rfl, ?_⟩
          rw [← hi.entries, hx]
          rfl
        · rw [if_neg ha, hi.slot?] at hs'
          exact .inl hs'
  | removed g =>
    rcases k.remove_cases g with ⟨-, heq⟩ | ⟨l, hl, rfl, ⟨r, s, hs, -, -, heq⟩ | ⟨b, -, -, heq⟩⟩
    · rw [heq]
      exact onward_of_slots rfl fun _ _ h => h
    · rw [heq]
      exact k.onward_modify hs _ rfl fun _ => rfl
    · rw [heq]
      refine onward_of_slots rfl fun a s h => ?_
      rw [slot?_closeSlot] at h
      split at h
      · cases h
      · exact h

end Host

/-! ## Steps of threads -/

namespace Thread

variable {n : Nat} {t u : Thread ν} {e : Sight ν} {p q : Host ν}

theorem edit_begin (className : String) (purpose : Purpose ν) (stack : List (Awaiting ν))
    (p : Host ν) : p.Edit (begin className purpose stack p).2 := by
  rw [begin]
  split
  · exact .refl p
  · dsimp only
    split
    · exact .still rfl rfl fun _ => rfl
    · exact .still rfl rfl fun _ => rfl

theorem edit_request {ρ : Role} (code : Program ν ρ) (place : Place ν ρ)
    (stack : List (Awaiting ν)) (p : Host ν) : p.Edit (request stack code place p).2 := by
  cases code with
  | ask a k =>
    cases a with
    | remove h => exact .removed h
    | removeModule id => exact .refl p
    | setForm m form => exact .still rfl rfl fun a => Host.entry_setForm p m a form
    | deoptimize m => exact .idle (p.idle_deoptimize m)
    | enterApp => exact .still rfl rfl fun _ => rfl
    | count c => exact .still rfl rfl fun _ => rfl
    | look => exact .refl p
  | install m expects run priority moduleId k => exact .installed m _ priority moduleId
  | redirect m body k =>
    rw [request]
    split
    · exact .refl p
    · rename_i hq
      exact .redirected hq
  | initClass className k => exact edit_begin className _ stack p
  | callBase h c k =>
    rw [request]
    split <;> exact .refl p
  | note x k => exact .still rfl rfl fun _ => rfl
  | _ => exact .refl p

/-- **All that a step does to a process.** -/
theorem step_edit (h : t.step n p = some (e, u, q)) : p.Edit q := by
  obtain ⟨now, stack⟩ := t
  cases now with
  | code code place =>
    have hq : (request stack code place p).2 = q :=
      congrArg (fun x => x.2.2) (Option.some.inj h)
    exact hq ▸ edit_request code place stack p
  | call m c =>
    rw [step] at h
    split at h
    · cases h
      exact .refl p
    · rename_i info _
      have hq : (begin info.className (.call m c) stack p).2 = q :=
        congrArg (fun x => x.2.2) (Option.some.inj h)
      exact hq ▸ edit_begin _ _ stack p
  | fetch m c =>
    rw [step] at h
    split at h <;> cases h <;> exact .refl p
  | enter entry c =>
    cases entry with
    | body b =>
      cases h
      exact .refl p
    | dispatcher s =>
      rw [step] at h
      split at h
      · cases h
      · cases h
        exact .refl p
  | walk v args =>
    obtain ⟨c, m, base, this, _ | ⟨l, rest⟩⟩ := v <;> cases h <;> exact .refl p
  | drop hs gone k place =>
    cases hs with
    | nil =>
      cases h
      exact .refl p
    | cons g hs =>
      have hremoved := Host.Edit.removed (p := p) g
      rw [step] at h
      split at h <;> rename_i heq <;> cases h <;> rw [heq] at hremoved <;> exact hremoved
  | done r =>
    rcases stack with _ | ⟨⟨k, place⟩ | ⟨className, purpose⟩, stack⟩
    · cases h
    · cases h
      exact .refl p
    · cases r <;> cases h <;> exact .still rfl rfl fun _ => rfl

end Thread

end Interpose
