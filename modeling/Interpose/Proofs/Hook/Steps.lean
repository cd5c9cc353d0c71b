/-
Interpose.Proofs.Hook.Steps — all that the hook table's operations can do.

An install ends in one of three ways, and a removal in one of four. Each
way is said here once, with everything that happens in it, and later
proofs split on these cases and never look into the operations again.

* `HooksOnly` holds of a process and what hooking makes of it: all that
  hooks do not stand on is as it was.
* `Idle` is the change that a refused install leaves behind, which is none
  that a call could notice: a form may have been left and a number used up.
* `install_cases` and `remove_cases` are the two case lists.
-/
import Interpose.Proofs.Host.Frame

namespace Interpose.Host

variable {ν : Type}

/-! ## What hooking leaves alone -/

/-- All that hooks do not stand on is as it was. -/
structure HooksOnly (p q : Host ν) : Prop where
  infos : q.methods.map (·.info) = p.methods.map (·.info)
  /-- A form that could not be left still cannot, and the other way round. -/
  leavable : ∀ m, (q.method? m).map (·.form.deoptimizable)
    = (p.method? m).map (·.form.deoptimizable)
  classInits : q.classInits = p.classInits
  initState : q.initState = p.initState
  appEntered : q.appEntered = p.appEntered
  refusals : q.refusals = p.refusals
  counters : q.counters = p.counters
  notes : q.notes = p.notes

theorem HooksOnly.refl (p : Host ν) : HooksOnly p p :=
  ⟨rfl, fun _ => rfl, rfl, rfl, rfl, rfl, rfl, rfl⟩

theorem HooksOnly.trans {p q r : Host ν} (h : HooksOnly p q) (g : HooksOnly q r) :
    HooksOnly p r where
  infos := g.infos.trans h.infos
  leavable := fun m => (g.leavable m).trans (h.leavable m)
  classInits := g.classInits.trans h.classInits
  initState := g.initState.trans h.initState
  appEntered := g.appEntered.trans h.appEntered
  refusals := g.refusals.trans h.refusals
  counters := g.counters.trans h.counters
  notes := g.notes.trans h.notes

/-- Slots and the table are what hooks stand on. -/
theorem hooksOnly_of_methods {p q : Host ν} (hm : q.methods = p.methods)
    (hc : q.classInits = p.classInits) (hi : q.initState = p.initState)
    (ha : q.appEntered = p.appEntered) (hr : q.refusals = p.refusals)
    (hk : q.counters = p.counters) (hn : q.notes = p.notes) : HooksOnly p q where
  infos := by rw [hm]
  leavable := fun m => by rw [method?, method?, hm]
  classInits := hc
  initState := hi
  appEntered := ha
  refusals := hr
  counters := hk
  notes := hn

theorem hooksOnly_setEntry (p : Host ν) (m : MethodId) (e : Entry ν) :
    HooksOnly p (p.setEntry m e) where
  infos := p.map_info_modifyMethod m _ fun _ => rfl
  leavable := by
    intro a
    rw [method?_setEntry, Option.map_map]
    congr 1
    funext x
    by_cases ha : a = m <;> simp [ha]
  classInits := rfl
  initState := rfl
  appEntered := rfl
  refusals := rfl
  counters := rfl
  notes := rfl

/-- A method is found by its number among what is declared. -/
theorem info?_eq_find? (p : Host ν) (m : MethodId) :
    p.info? m = (p.methods.map (·.info)).find? (·.id == m) := by
  rw [info?, method?, List.find?_map]
  rfl

/-- Forms may have been left and so many handles used up; nothing else has happened. -/
structure Idle (used : Nat) (p q : Host ν) : Prop where
  slots : q.slots = p.slots
  table : q.table = { p.table with nextHandle := p.table.nextHandle + used }
  entries : ∀ m, (q.method? m).map (·.entry) = (p.method? m).map (·.entry)
  others : HooksOnly p q

theorem Idle.refl (p : Host ν) : Idle 0 p p := ⟨rfl, rfl, fun _ => rfl, .refl p⟩

theorem Idle.trans {p q r : Host ν} {i j : Nat} (h : Idle i p q) (g : Idle j q r) :
    Idle (i + j) p r where
  slots := g.slots.trans h.slots
  table := by rw [g.table, h.table, Nat.add_assoc]
  entries := fun m => (g.entries m).trans (h.entries m)
  others := h.others.trans g.others

theorem Idle.slot? {p q : Host ν} {i : Nat} (h : Idle i p q) (m : MethodId) :
    q.table.slot? m = p.table.slot? m := by
  rw [h.table]
  rfl

theorem idle_drawHandle (p : Host ν) : Idle 1 p p.drawHandle :=
  ⟨rfl, rfl, fun _ => rfl, hooksOnly_of_methods rfl rfl rfl rfl rfl rfl rfl⟩

/-- Leaving a form that can be left. -/
theorem idle_leave (p : Host ν) (m : MethodId) (n : Nat) {x : Method ν}
    (hx : p.method? m = some x) (hform : x.form.deoptimizable = true) :
    Idle 0 p { p.setForm m .interpreted with deoptCount := n } where
  slots := rfl
  table := rfl
  entries := fun a => p.entry_setForm m a .interpreted
  others := {
    infos := p.map_info_modifyMethod m _ fun _ => rfl
    leavable := by
      intro a
      show ((p.setForm m .interpreted).method? a).map _ = _
      rw [method?_setForm, Option.map_map]
      by_cases ha : a = m
      · subst ha
        rw [hx, Option.map_some, Option.map_some, hform]
        simp [ExecForm.deoptimizable]
      · cases p.method? a <;> simp [ha]
    classInits := rfl
    initState := rfl
    appEntered := rfl
    refusals := rfl
    counters := rfl
    notes := rfl }

theorem idle_deoptimize (p : Host ν) (m : MethodId) : Idle 0 p (p.deoptimize m).2 := by
  unfold deoptimize
  split
  · exact .refl p
  · split
    · exact .refl p
    · split
      · exact .refl p
      · rename_i x hx
        split
        · exact .refl p
        · split
          · exact .refl p
          · rename_i hform _
            exact idle_leave p m _ hx (by simpa using hform)

theorem idle_makeRedirectable (p : Host ν) (m : MethodId) (desc : String) :
    Idle 0 p (p.makeRedirectable m desc).2 := by
  have hdeopt := idle_deoptimize p m
  unfold makeRedirectable
  split
  · exact .refl p
  · split
    · exact .refl p
    · split
      · exact .refl p
      · split
        · rename_i heq; rw [heq] at hdeopt; exact hdeopt
        · rename_i heq; rw [heq] at hdeopt; exact hdeopt
        · rename_i heq
          rw [heq] at hdeopt
          split <;> exact hdeopt

/-! ## Installing -/

/-- A process in which a method has its first layer: a slot above what it
did, and a dispatcher in the place of its entry. -/
def opened (p : Host ν) (m : MethodId) (base : Entry ν) (l : Layer ν) : Host ν :=
  { p.setEntry m (.dispatcher p.slots.length) with
    slots := p.slots ++ [{ method := m, base, layers := [l] }]
    table := { p.table with slotOf := p.table.slotOf ++ [(m, p.slots.length)] } }

theorem redirect_eq_ok {p q : Host ν} {m : MethodId} {e : Entry ν}
    (h : p.redirect m e = .ok q) : q = p.setEntry m e := by
  unfold redirect at h
  split at h
  · cases h
  · split at h
    · cases h
    · split at h
      · cases h
      · exact (Except.ok.inj h).symm

theorem redirect_declared {p q : Host ν} {m : MethodId} {e : Entry ν}
    (h : p.redirect m e = .ok q) : ∃ x, p.method? m = some x := by
  unfold redirect at h
  split at h
  · cases h
  · split at h
    · cases h
    · rename_i info hinfo
      obtain ⟨x, hx, _⟩ := Option.map_eq_some_iff.mp hinfo
      exact ⟨x, hx⟩

theorem entry?_eq_some {p : Host ν} {m : MethodId} {e : Entry ν} (h : p.entry? m = some e) :
    ∃ x, p.method? m = some x ∧ x.entry = e := by
  unfold entry? at h
  split at h
  · cases h
  · exact Option.map_eq_some_iff.mp h

/-- Opening a slot either changes nothing that counts, or makes the slot
above the entry that the method has. -/
theorem openSlot_cases (p : Host ν) (m : MethodId) (desc : String) (l : Layer ν) :
    (∃ e q, p.openSlot m desc l = (.error e, q) ∧ Idle 0 p q) ∨
    (∃ q x, p.openSlot m desc l = (.ok (), q.opened m x.entry l) ∧ Idle 0 p q ∧
      q.method? m = some x) := by
  have hidle := idle_makeRedirectable p m desc
  unfold openSlot
  generalize p.makeRedirectable m desc = made at hidle
  obtain ⟨r, q⟩ := made
  cases r with
  | error e => exact .inl ⟨e, q, rfl, hidle⟩
  | ok _ =>
    dsimp only at hidle ⊢
    cases hentry : q.entry? m with
    | none => exact .inl ⟨_, q, rfl, hidle⟩
    | some base =>
      obtain ⟨x, hx, rfl⟩ := entry?_eq_some hentry
      dsimp only
      cases hred : q.redirect m (.dispatcher q.slots.length) with
      | error e => exact .inl ⟨_, q, rfl, hidle⟩
      | ok q' =>
        rw [redirect_eq_ok hred]
        exact .inr ⟨q, x, rfl, hidle, hx⟩

/-- The layer that an install makes: its handle is its place in the order. -/
def newLayer (p : Host ν) (m : MethodId) (hook : Hook ν) (priority : Int32)
    (moduleId : String) : Layer ν :=
  { handle := ⟨p.table.nextHandle⟩, method := m, moduleId, priority
    order := p.table.nextHandle, hook }

/-- **What an install can do**: nothing that counts; a further layer in a
slot that is there; or a slot with a first layer. -/
theorem install_cases (p : Host ν) (m : MethodId) (hook : Hook ν) (priority : Int32)
    (moduleId : String) :
    (∃ e q i, p.install m hook priority moduleId = (.error e, q) ∧ Idle i p q) ∨
    (∃ s, p.table.slot? m = some s ∧ p.install m hook priority moduleId
      = (.ok ⟨p.table.nextHandle⟩,
          (p.drawHandle.pushLayer s (p.newLayer m hook priority moduleId)).grant
            ⟨p.table.nextHandle⟩ m)) ∨
    (p.table.slot? m = none ∧ ∃ q x, Idle 1 p q ∧ q.method? m = some x ∧
      p.install m hook priority moduleId
        = (.ok ⟨p.table.nextHandle⟩,
            (q.opened m x.entry (p.newLayer m hook priority moduleId)).grant
              ⟨p.table.nextHandle⟩ m)) := by
  unfold install
  cases hinfo : p.info? m with
  | none => exact .inl ⟨_, p, 0, rfl, .refl p⟩
  | some info =>
    dsimp only
    cases hcheck : checkTarget info hook.expects with
    | error e => exact .inl ⟨e, p, 0, rfl, .refl p⟩
    | ok _ =>
      dsimp only
      cases hslot : p.drawHandle.table.slot? m with
      | some s => exact .inr (.inl ⟨s, hslot, rfl⟩)
      | none =>
        dsimp only
        rcases openSlot_cases p.drawHandle m info.descriptor
          (p.newLayer m hook priority moduleId) with ⟨e, q, heq, hidle⟩ | ⟨q, x, heq, hidle, hx⟩
        · refine .inl ⟨e, q, 1, ?_, (idle_drawHandle p).trans hidle⟩
          rw [newLayer] at heq
          rw [heq]
        · refine .inr (.inr ⟨hslot, q, x, (idle_drawHandle p).trans hidle, hx, ?_⟩)
          rw [newLayer] at heq
          rw [heq]
          rfl

theorem hooksOnly_opened (p : Host ν) (m : MethodId) (base : Entry ν) (l : Layer ν) :
    HooksOnly p (p.opened m base l) :=
  (p.hooksOnly_setEntry m _).trans (hooksOnly_of_methods rfl rfl rfl rfl rfl rfl rfl)

theorem hooksOnly_install (p : Host ν) (m : MethodId) (hook : Hook ν) (priority : Int32)
    (moduleId : String) : HooksOnly p (p.install m hook priority moduleId).2 := by
  rcases p.install_cases m hook priority moduleId with
    ⟨e, q, i, heq, hi⟩ | ⟨s, _, heq⟩ | ⟨_, q, x, hi, _, heq⟩
  · rw [heq]
    exact hi.others
  · rw [heq]
    exact hooksOnly_of_methods rfl rfl rfl rfl rfl rfl rfl
  · rw [heq]
    exact (hi.others.trans
        (q.hooksOnly_opened m x.entry (p.newLayer m hook priority moduleId))).trans
      (hooksOnly_of_methods rfl rfl rfl rfl rfl rfl rfl)

/-- An install opens no slot but its method's. -/
theorem slot?_install (p : Host ν) (m : MethodId) (hook : Hook ν) (priority : Int32)
    (moduleId : String) {a : MethodId} (ha : a ≠ m) :
    (p.install m hook priority moduleId).2.table.slot? a = p.table.slot? a := by
  rcases p.install_cases m hook priority moduleId with
    ⟨e, q, i, heq, hi⟩ | ⟨s, _, heq⟩ | ⟨hs, q, x, hi, _, heq⟩
  · rw [heq]
    exact hi.slot? a
  · rw [heq]
    rfl
  · rw [heq, ← hi.slot? a]
    have hopened := slot?_append q.table m a q.slots.length ((hi.slot? m).trans hs)
    rw [if_neg ha] at hopened
    exact hopened

/-! ## Removing -/

theorem restore_eq_ok {p q : Host ν} {m : MethodId} {e : Entry ν}
    (h : p.restore m e = .ok q) : q = p.setEntry m e := by
  unfold restore at h
  split at h
  · cases h
  · split at h
    · cases h
    · exact (Except.ok.inj h).symm

theorem restore_eq_error {p : Host ν} {m : MethodId} {e : Entry ν} {x : RuntimeError}
    (h : p.restore m e = .error x) : (p.refusals m).restore ≠ none ∨ p.method? m = none := by
  unfold restore at h
  split at h
  · rename_i heq
    exact .inl (by rw [heq]; exact Option.some_ne_none _)
  · split at h
    · rename_i hinfo
      exact .inr (Option.map_eq_none_iff.mp hinfo)
    · cases h

/-- **What a removal can do**, for a handle whose method has a slot: leave
other layers in the slot; give the entry back and close the slot; or, if
the entry cannot be given back, leave the slot with no layer. -/
theorem remove_cases (p : Host ν) (h : HookHandle) :
    (p.table.methodOf? h = none ∧ p.remove h = (.error (.unknownHandle h), p)) ∨
    (∃ m, p.table.methodOf? h = some m ∧ ∀ s slot, p.table.slot? m = some s →
      p.slots[s]? = some slot →
      (slot.layers.filter (·.handle ≠ h) ≠ [] ∧
        p.remove h = (.ok (), (p.forget h).setLayers s (slot.layers.filter (·.handle ≠ h)))) ∨
      (slot.layers.filter (·.handle ≠ h) = [] ∧
        ((p.remove h = (.ok (), ((p.forget h).setEntry m slot.base).closeSlot m)) ∨
         (∃ e, (p.forget h).restore m slot.base = .error e ∧
            p.remove h = (.error (.restoreFailed m e), (p.forget h).setLayers s []))))) := by
  cases hm : p.table.methodOf? h with
  | none =>
    refine .inl ⟨rfl, ?_⟩
    rw [remove, hm]
  | some m =>
    refine .inr ⟨m, rfl, fun s slot hs hslot => ?_⟩
    have hs' : (p.forget h).table.slot? m = some s := hs
    have hslot' : (p.forget h).slots[s]? = some slot := hslot
    rw [remove, hm]
    dsimp only
    rw [hs']
    dsimp only
    rw [hslot']
    dsimp only
    by_cases hrest : slot.layers.filter (·.handle ≠ h) = []
    · refine .inr ⟨hrest, ?_⟩
      rw [hrest, if_pos List.isEmpty_nil]
      cases hres : (p.forget h).restore m slot.base with
      | error e => exact .inr ⟨e, rfl, rfl⟩
      | ok q =>
        rw [restore_eq_ok hres]
        exact .inl rfl
    · refine .inl ⟨hrest, ?_⟩
      rw [if_neg (by rw [List.isEmpty_iff]; exact hrest)]

theorem hooksOnly_remove (p : Host ν) (h : HookHandle) : HooksOnly p (p.remove h).2 := by
  unfold remove
  split
  · exact .refl p
  · have hforget : HooksOnly p (p.forget h) := hooksOnly_of_methods rfl rfl rfl rfl rfl rfl rfl
    dsimp only
    split
    · exact hforget
    · split
      · exact hforget
      · split
        · split
          · exact hforget.trans (hooksOnly_of_methods rfl rfl rfl rfl rfl rfl rfl)
          · rename_i hres
            rw [restore_eq_ok hres]
            exact (hforget.trans (hooksOnly_setEntry _ _ _)).trans
              (hooksOnly_of_methods rfl rfl rfl rfl rfl rfl rfl)
        · exact hforget.trans (hooksOnly_of_methods rfl rfl rfl rfl rfl rfl rfl)

theorem removeAll_cons_snd (p : Host ν) (h : HookHandle) (hs : List HookHandle) :
    (p.removeAll (h :: hs)).2 = ((p.remove h).2.removeAll hs).2 := by
  rw [removeAll]
  split
  · rename_i heq
    rw [heq]
  · rename_i heq
    rw [heq]

theorem hooksOnly_removeAll (p : Host ν) (hs : List HookHandle) :
    HooksOnly p (p.removeAll hs).2 := by
  induction hs generalizing p with
  | nil => exact .refl p
  | cons h hs ih =>
    rw [removeAll_cons_snd]
    exact (p.hooksOnly_remove h).trans (ih _)

end Interpose.Host
