/-
Interpose.Proofs.Hook.Reference — hooked methods do what the ledger says.

A process is operated on from outside: methods are declared, forms set,
layers installed and removed, and the runtime may change its mind about
what it refuses before each operation. Beside it a ledger is written, from
the operations and their answers alone. Whatever the operations are, in
the end calling a method is calling it by the ledger.

The two do not spend depth alike: a dispatcher costs one call and the body
below its layers another, where the ledger's stack costs none. So results
are compared at some depth, each side's at one of its own
(`descend_of_stack`, `stack_of_descend`).

Main statements: `performAll_keeps`, by induction on the operations, and
`performAll_refines`.
-/
import Interpose.Proofs.Hook.Keeping
import Interpose.Proofs.Host.Depth

namespace Interpose

variable {ν : Type}

/-! ## Stacks and chains -/

namespace Host

section Stacks

variable {e₁ e₂ : Enter ν} {m : MethodId} {b : Body ν} {this : Option Value}

/-- A chain gives what the stack of its lines gives. -/
theorem descend_of_stack (he : Extends e₁ e₂)
    (hbase : ∀ c p r, exec e₁ (b c) () p = some r → e₂ (.body b) c p = some r)
    (ls : List (Line ν)) {args : List Value} {p : Host ν} {r : Outcome × Host ν}
    (h : Ledger.stack e₁ m b this ls args p = some r) :
    descend e₂ m (.body b) this (ls.map Line.layer) args p = some r := by
  induction ls generalizing args p r with
  | nil => exact hbase _ _ _ h
  | cons l rest ih =>
    rw [List.map_cons, descend, List.length_map]
    refine exec_mono (ρ := .layer) he _ ?_ h
    intro args p r hr
    exact ih hr

/-- A stack of lines gives what their chain gives. -/
theorem stack_of_descend (he : Extends e₁ e₂)
    (hbase : ∀ c p r, e₁ (.body b) c p = some r → exec e₂ (b c) () p = some r)
    (ls : List (Line ν)) {args : List Value} {p : Host ν} {r : Outcome × Host ν}
    (h : descend e₁ m (.body b) this (ls.map Line.layer) args p = some r) :
    Ledger.stack e₂ m b this ls args p = some r := by
  induction ls generalizing args p r with
  | nil => exact hbase _ _ _ h
  | cons l rest ih =>
    rw [List.map_cons, descend, List.length_map] at h
    refine exec_mono (ρ := .layer) he _ ?_ h
    intro args p r hr
    exact ih hr

end Stacks

/-! ## Calls -/

/-- A method's class is initialised, or is being initialised; a method
nobody declared has no class to be initialised. -/
def ClassReady (p : Host ν) (m : MethodId) : Prop :=
  ∀ info, p.info? m = some info → (p.initState.lookup info.className).isSome = true

/-- With its class ready, a call goes straight to the entry. -/
theorem invokeWith_ready {p : Host ν} {m : MethodId} (hready : p.ClassReady m) (e : Enter ν)
    (c : Call) : invokeWith e m c p = match p.method? m with
      | none => some (.error { className := "NoSuchMethodError", message := m.text }, p)
      | some x => e x.entry c p := by
  unfold invokeWith
  cases hx : p.method? m with
  | none => rw [info?, hx]; rfl
  | some x =>
    have hinfo : p.info? m = some x.info := by rw [info?, hx]; rfl
    have hinit : ensureInit e x.info.className p = some (.ok (), p) := by
      unfold ensureInit
      rw [if_pos (hready x.info hinfo)]
    rw [hinfo]
    dsimp only
    rw [hinit, Option.bind_some]
    dsimp only
    rw [hx]

/-- The body of a method is run one call down. -/
theorem exists_enter_body {b : Body ν} {c : Call} {p : Host ν} {r : Outcome × Host ν} :
    (∃ d, enter d (.body b) c p = some r) ↔ ∃ d, exec (enter d) (b c) () p = some r := by
  constructor
  · rintro ⟨d, h⟩
    cases d with
    | zero => cases h
    | succ d => exact ⟨d, h⟩
  · rintro ⟨d, h⟩
    exact ⟨d + 1, h⟩

/-- The layers of a slot are run one call down, and the body below them
one further. -/
theorem exists_enter_dispatcher {m : MethodId} {s : Nat} {b : Body ν} {ls : List (Line ν)}
    {c : Call} {p : Host ν} {r : Outcome × Host ν}
    (hslot : p.slots[s]? = some { method := m, base := .body b, layers := ls.map Line.layer }) :
    (∃ d, enter d (.dispatcher s) c p = some r)
      ↔ ∃ d, Ledger.stack (enter d) m b c.this ls c.args p = some r := by
  have henter : ∀ d, enter (d + 1) (.dispatcher s) c p
      = descend (enter d) m (.body b) c.this (ls.map Line.layer) c.args p := by
    intro d
    rw [enter, hslot]
  constructor
  · rintro ⟨d, h⟩
    cases d with
    | zero => cases h
    | succ d =>
      rw [henter] at h
      refine ⟨d, stack_of_descend (fun _ _ _ _ h => h) ?_ ls h⟩
      intro c p r h
      cases d with
      | zero => cases h
      | succ d => exact exec_mono (ρ := .plain) (enter_succ d) _ trivial h
  · rintro ⟨d, h⟩
    refine ⟨d + 2, ?_⟩
    rw [henter]
    exact descend_of_stack (enter_succ d) (fun _ _ _ h => h) ls h

/-- **A process that keeps a ledger does what the ledger says.** -/
theorem Keeps.yields_iff {p : Host ν} {L : Ledger ν} {elsewhere : MethodId → Option (Body ν)}
    (k : p.Keeps L elsewhere) {m : MethodId} (hm : elsewhere m = none)
    (hready : p.ClassReady m) (c : Call) (r : Outcome × Host ν) :
    p.Yields m c r ↔ ∃ d, L.call (enter d) m c p = some r := by
  have hentry := k.entries m
  unfold Yields Ledger.call
  simp only [invokeWith_ready hready]
  cases hb : L.body? m with
  | none =>
    rw [hb, Option.map_none, Option.map_eq_none_iff] at hentry
    rw [hentry]
  | some b =>
    rw [hb, Option.map_some, Option.map_eq_some_iff] at hentry
    obtain ⟨x, hx, hxentry⟩ := hentry
    rw [hx]
    dsimp only
    rw [hxentry, hm]
    cases hs : p.table.slot? m with
    | none =>
      rw [k.chain_eq_nil hs]
      exact exists_enter_body
    | some s =>
      obtain ⟨b', hb', hslot⟩ := k.slots m s hs
      rw [hb] at hb'
      rw [← Option.some.inj hb'] at hslot
      exact exists_enter_dispatcher hslot

end Host

/-! ## Operations -/

/-- What is done to a process from outside. -/
inductive TableOp (ν : Type) where
  | declare (className name : String) (params : List String) (ret : String) (flags : MethodFlags)
      (form : ExecForm) (body : Body ν)
  | setForm (m : MethodId) (form : ExecForm)
  | install (m : MethodId) (hook : Hook ν) (priority : Int32) (moduleId : String)
  | remove (h : HookHandle)
  | removeModule (moduleId : String)
  /-- From now on the runtime refuses this. -/
  | refuse (refusals : MethodId → Refusals)

abbrev TableOp.Answer : TableOp ν → Type
  | declare .. => MethodId
  | install .. => Except HookError HookHandle
  | remove _ => Except HookError Unit
  | removeModule _ => Nat
  | setForm .. | refuse _ => Unit

/-- What the process makes of an operation. -/
def Host.perform (p : Host ν) : (op : TableOp ν) → op.Answer × Host ν
  | .declare className name params ret flags form body =>
    (⟨UInt64.ofNat (p.methods.length + 1)⟩, p.declare className name params ret flags form body)
  | .setForm m form => ((), p.setForm m form)
  | .install m hook priority moduleId => p.install m hook priority moduleId
  | .remove h => p.remove h
  | .removeModule moduleId => p.removeModule moduleId
  | .refuse refusals => ((), { p with refusals })

/-- What is written down of an operation and its answer. A removal counts
whatever it answers; only installs can fail. -/
def Ledger.write (L : Ledger ν) : (op : TableOp ν) → op.Answer → Ledger ν
  | .declare _ _ _ _ _ _ body, m => L.declare m body
  | .setForm .., _ => L
  | .install m hook priority moduleId, .ok h => L.install h m hook priority moduleId
  | .install .., .error _ => L
  | .remove h, _ => L.remove h
  | .removeModule moduleId, _ => L.removeModule moduleId
  | .refuse _, _ => L

/-- Performs operations one after the other and writes each of them down. -/
def Host.performAll : List (TableOp ν) → Host ν → Ledger ν → Host ν × Ledger ν
  | [], p, L => (p, L)
  | op :: ops, p, L => performAll ops (p.perform op).2 (L.write op (p.perform op).1)

namespace Host

/-- No operation writes anything but what it does. -/
theorem perform_keeps {p : Host ν} {L : Ledger ν} (k : p.Keeps L fun _ => none)
    (op : TableOp ν) : (p.perform op).2.Keeps (L.write op (p.perform op).1) fun _ => none := by
  have hnone : ∀ {M : Ledger ν} {elsewhere : MethodId → Option (Body ν)},
      Undone M (fun _ => none) elsewhere → elsewhere = fun _ => none := by
    intro M elsewhere h
    funext a
    rcases h a with ha | ⟨ha, _⟩ <;> exact ha
  cases op with
  | declare className name params ret flags form body =>
    exact k.declare className name params ret flags form body
  | setForm m form => exact k.setForm m form
  | install m hook priority moduleId =>
    show (p.install m hook priority moduleId).2.Keeps
      (L.write (.install m hook priority moduleId) (p.install m hook priority moduleId).1) _
    rcases k.install m hook priority moduleId with ⟨e, q, i, heq, hq, _⟩ | ⟨q, heq, hq⟩
    · rw [heq]
      exact hq
    · rw [heq]
      exact hq
  | remove h =>
    obtain ⟨elsewhere, hq, helse⟩ := k.remove h
    rw [hnone helse] at hq
    exact hq
  | removeModule moduleId =>
    obtain ⟨elsewhere, hq, helse⟩ := k.removeModule moduleId
    rw [hnone helse] at hq
    exact hq
  | refuse refusals => exact k.same (i := 0) rfl rfl fun _ => rfl

/-- **The ledger is kept through every sequence of operations.** -/
theorem performAll_keeps (ops : List (TableOp ν)) {p : Host ν} {L : Ledger ν}
    (k : p.Keeps L fun _ => none) :
    (performAll ops p L).1.Keeps (performAll ops p L).2 fun _ => none := by
  induction ops generalizing p L with
  | nil => exact k
  | cons op ops ih => exact ih (perform_keeps k op)

/-- **Hooked methods do what the ledger says**, whatever has been done to the
process. A method without lines does what it was declared to do, however
it lost them; and an install that fails changes what no call gives: the
ledger still says what they give. -/
theorem performAll_refines (p₀ : Host ν) (h₀ : p₀.Untouched) (ops : List (TableOp ν)) :
    let q := (performAll ops p₀ (.of p₀)).1
    let L := (performAll ops p₀ (.of p₀)).2
    (∀ m, q.ClassReady m → ∀ c r, q.Yields m c r ↔ ∃ d, L.call (enter d) m c q = some r) ∧
    (∀ m b, q.ClassReady m → L.body? m = some b → L.chain m = [] →
      ∀ c r, q.Yields m c r ↔ ∃ d, exec (enter d) (b c) () q = some r) ∧
    (∀ target hook priority moduleId e q', q.install target hook priority moduleId
        = (.error e, q') →
      (∃ i, Idle i q q') ∧
      ∀ m, q'.ClassReady m → ∀ c r,
        q'.Yields m c r ↔ ∃ d, L.call (enter d) m c q' = some r) := by
  intro q L
  have k : q.Keeps L fun _ => none := performAll_keeps ops h₀.keeps
  refine ⟨fun m hm c r => k.yields_iff rfl hm c r, ?_, ?_⟩
  · intro m b hm hb hnil c r
    rw [k.yields_iff rfl hm c r]
    unfold Ledger.call
    rw [hb, hnil]
    exact Iff.rfl
  · intro target hook priority moduleId e q' hfail
    rcases k.install target hook priority moduleId with ⟨e', q'', i, heq, hq, hi⟩ | ⟨q'', heq, _⟩
    · rw [heq] at hfail
      cases hfail
      exact ⟨⟨i, hi⟩, fun m hm c r => hq.yields_iff rfl hm c r⟩
    · rw [heq] at hfail
      cases hfail

/-- A process that declares one method, of a class that is initialised. -/
def oneMethod : Host Unit where
  methods := [{
    info := { id := ⟨1⟩, className := "A", name := "f" }
    entry := .body fun _ => .finish (.ok .null) }]
  initState := [("A", .done)]

theorem oneMethod_untouched : oneMethod.Untouched := by
  refine ⟨rfl, rfl, fun x hx => ?_⟩
  cases List.mem_singleton.mp hx
  exact ⟨_, rfl⟩

/-- A hook that answers for the method. -/
def answering (n : Int64) : Hook Unit where
  run := fun _ => .finish (.ok (.int n))

/-- A restore that is refused leaves a slot behind, and the next layer goes into it. -/
theorem performAll_refines_reused :
    let ops : List (TableOp Unit) := [
      .install ⟨1⟩ (answering 1) 0 "a", .refuse fun _ => { restore := some .unknown },
      .remove ⟨1⟩, .install ⟨1⟩ (answering 2) 0 "b"]
    let q := (performAll ops oneMethod (.of oneMethod)).1
    q.ClassReady ⟨1⟩ ∧ q.slots.length = 1 ∧ q.Yields ⟨1⟩ {} (.ok (.int 2), q) := by
  intro ops q
  have hready : q.ClassReady ⟨1⟩ := by
    intro info hinfo
    cases hinfo
    rfl
  refine ⟨hready, rfl, ?_⟩
  apply ((performAll_refines oneMethod oneMethod_untouched ops).1 ⟨1⟩ hready {} _).mpr
  have hchain : (performAll ops oneMethod (.of oneMethod)).2.chain ⟨1⟩
      = [{ handle := ⟨2⟩, method := ⟨1⟩, moduleId := "b", priority := 0, hook := answering 2
           time := 1 }] := List.mergeSort_singleton _
  refine ⟨1, ?_⟩
  unfold Ledger.call
  rw [hchain]
  rfl

end Host

end Interpose
