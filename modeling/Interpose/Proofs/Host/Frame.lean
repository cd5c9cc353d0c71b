/-
Interpose.Proofs.Host.Frame — what reading a process gives after writing.

A process is written to in few ways: a method's entry or form is set, a
method is declared, a slot is made or changed, a line of the hook table is
added or crossed out. For each of them this module says what every reading
gives afterwards, so that later proofs need not look into the lists.

A reading by number finds the first method of that number. So nothing here
asks numbers to be distinct.
-/
import Interpose.Host.Hooks

namespace Interpose

/-! ## Lists that are looked up -/

section Lookup

variable {α β : Type} [BEq α] [LawfulBEq α]

/-- Crossing a key out leaves the other keys what they were. -/
theorem lookup_filter_ne [DecidableEq α] (xs : List (α × β)) (k a : α) :
    (xs.filter fun x => x.1 ≠ k).lookup a = if a = k then none else xs.lookup a := by
  induction xs with
  | nil => simp
  | cons x xs ih =>
    obtain ⟨b, v⟩ := x
    by_cases hb : b = k
    · subst hb
      rw [List.filter_cons_of_neg (by simp), ih]
      by_cases ha : a = b
      · simp [ha]
      · simp [ha, List.lookup_cons, beq_eq_false_iff_ne.mpr ha]
    · rw [List.filter_cons_of_pos (by simpa using hb), List.lookup_cons, List.lookup_cons, ih]
      cases hab : a == b with
      | true =>
        have : a ≠ k := by rw [eq_of_beq hab]; exact hb
        simp [this]
      | false => rfl

theorem mem_keys_of_lookup {xs : List (α × β)} {a : α} {v : β} (h : xs.lookup a = some v) :
    a ∈ xs.map (·.1) := by
  obtain ⟨l₁, l₂, rfl, _⟩ := List.lookup_eq_some_iff.mp h
  simp

end Lookup

namespace Host

variable {ν : Type}

/-! ## Methods -/

theorem method?_id {p : Host ν} {m : MethodId} {x : Method ν} (h : p.method? m = some x) :
    x.info.id = m := by
  have := List.find?_some h
  simpa using this

/-- A change that keeps what is declared changes one method and no other. -/
theorem method?_modifyMethod (p : Host ν) (m a : MethodId) (f : Method ν → Method ν)
    (hf : ∀ x, (f x).info = x.info) :
    (p.modifyMethod m f).method? a = (p.method? a).map fun x => if a = m then f x else x := by
  have hid : (fun x : Method ν => x.info.id == a) ∘ (fun x => if x.info.id = m then f x else x)
      = fun x => x.info.id == a := by
    funext x
    by_cases hx : x.info.id = m <;> simp [hx, hf]
  rw [method?, modifyMethod, List.find?_map, hid]
  show (p.method? a).map _ = _
  cases h : p.method? a with
  | none => rfl
  | some x => simp [method?_id h]

theorem method?_setEntry (p : Host ν) (m a : MethodId) (e : Entry ν) :
    (p.setEntry m e).method? a
      = (p.method? a).map fun x => if a = m then { x with entry := e } else x :=
  p.method?_modifyMethod m a _ fun _ => rfl

theorem method?_setForm (p : Host ν) (m a : MethodId) (form : ExecForm) :
    (p.setForm m form).method? a
      = (p.method? a).map fun x => if a = m then { x with form } else x :=
  p.method?_modifyMethod m a _ fun _ => rfl

theorem entry_setEntry_self {p : Host ν} {m : MethodId} {x : Method ν} (e : Entry ν)
    (hx : p.method? m = some x) : ((p.setEntry m e).method? m).map (·.entry) = some e := by
  rw [method?_setEntry, hx, Option.map_some, Option.map_some, if_pos rfl]

theorem entry_setEntry_ne (p : Host ν) {m a : MethodId} (e : Entry ν) (ha : a ≠ m) :
    ((p.setEntry m e).method? a).map (·.entry) = (p.method? a).map (·.entry) := by
  rw [method?_setEntry, Option.map_map]
  congr 1
  funext x
  simp [ha]

/-- A form makes no difference to the entries. -/
theorem entry_setForm (p : Host ν) (m a : MethodId) (form : ExecForm) :
    ((p.setForm m form).method? a).map (·.entry) = (p.method? a).map (·.entry) := by
  rw [method?_setForm, Option.map_map]
  congr 1
  funext x
  by_cases ha : a = m <;> simp [ha]

/-- Declaring changes no method that is there; the new one is found unless
its number was taken. -/
theorem method?_declare (p : Host ν) (className name : String) (params : List String)
    (ret : String) (flags : MethodFlags) (form : ExecForm) (body : Body ν) (a : MethodId) :
    (p.declare className name params ret flags form body).method? a
      = (p.method? a).or (if a = ⟨UInt64.ofNat (p.methods.length + 1)⟩ then
          some { info := { id := a, className, name, params, ret, flags }
                 form, entry := .body body } else none) := by
  rw [method?, declare, List.find?_append]
  generalize (⟨UInt64.ofNat (p.methods.length + 1)⟩ : MethodId) = id
  congr 1
  by_cases ha : a = id
  · subst ha; simp
  · have : (id == a) = false := beq_eq_false_iff_ne.mpr fun h => ha h.symm
    rw [if_neg ha, List.find?_cons, this]
    rfl

/-- What is declared does not change when entries and forms do. -/
theorem map_info_modifyMethod (p : Host ν) (m : MethodId) (f : Method ν → Method ν)
    (hf : ∀ x, (f x).info = x.info) :
    (p.modifyMethod m f).methods.map (·.info) = p.methods.map (·.info) := by
  rw [modifyMethod, List.map_map]
  apply List.map_congr_left
  intro x _
  by_cases hx : x.info.id = m <;> simp [hx, hf]

/-! ## The hook table -/

/-- Only the first slot of a method counts. -/
theorem slot?_append (t : HookTable) (m a : MethodId) (s : Nat) (h : t.slot? m = none) :
    HookTable.slot? { t with slotOf := t.slotOf ++ [(m, s)] } a
      = if a = m then some s else t.slot? a := by
  rw [HookTable.slot?, List.lookup_append]
  by_cases ha : a = m
  · subst ha
    have : t.slotOf.lookup a = none := h
    simp [this]
  · have : (a == m) = false := beq_eq_false_iff_ne.mpr ha
    rw [if_neg ha, List.lookup_cons, this, List.lookup_nil, Option.or_none, HookTable.slot?]

theorem slot?_closeSlot (p : Host ν) (m a : MethodId) :
    (p.closeSlot m).table.slot? a = if a = m then none else p.table.slot? a :=
  lookup_filter_ne p.table.slotOf m a

/-! ## Classes -/

/-- Setting the state of one class leaves the others what they were. -/
theorem lookup_setInit (p : Host ν) (className a : String) (s : Option InitState) :
    (p.setInit className s).initState.lookup a
      = if a = className then s else p.initState.lookup a := by
  have hothers := lookup_filter_ne p.initState className a
  by_cases ha : a = className
  · subst ha
    rw [if_pos rfl] at hothers ⊢
    cases s with
    | none => exact hothers
    | some s => simp [setInit]
  · rw [if_neg ha] at hothers ⊢
    cases s with
    | none => exact hothers
    | some s =>
      rw [← hothers]
      simp [setInit, List.lookup_cons, beq_eq_false_iff_ne.mpr ha]

end Host

end Interpose
