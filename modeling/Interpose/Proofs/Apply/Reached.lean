/-
Interpose.Proofs.Apply.Reached — the processes that there can be.

A process begins with nothing redirected. Methods and initialisers are
declared, code runs, modules are applied and dropped, in any order and any
number of times. Whatever is done, the process stays orderly, because no
request makes it disorderly. So every process that can be reached keeps
some ledger: `Reached.orderly`. And nothing else than its own operations
makes a hook table what it is: `Reached.tabled`.
-/
import Interpose.Proofs.Hook.Orderly
import Interpose.Proofs.Hook.Tabled
import Interpose.Proofs.Apply.Carrying

namespace Interpose

variable {ν : Type}

namespace Host

/-- From a process that nobody has redirected and that refuses nothing, by
declaring methods and initialisers, running any code, and applying modules
and taking them out again. -/
inductive Reached : Host ν → Prop
  | untouched {p : Host ν} (h : p.Untouched) (willing : ∀ m, p.refusals m = {}) : Reached p
  | declare {p : Host ν} (h : Reached p) (className name : String) (params : List String)
      (ret : String) (flags : MethodFlags) (form : ExecForm) (body : Body ν) :
      Reached (p.declare className name params ret flags form body)
  | setClassInit {p : Host ν} (h : Reached p) (className : String) (init : Program ν .plain) :
      Reached (p.setClassInit className init)
  | ran {p q : Host ν} (h : Reached p) {depth : Nat} {code : Program ν .plain} {r : Outcome}
      (run : exec (enter depth) code () p = some (r, q)) : Reached q
  | applied {p q : Host ν} (h : Reached p) {σ : Type} {source : Source ν σ}
      {modules : List ModuleInfo} {session : ProcessSession} {s : σ}
      {r : (ApplyEnd × ProcessSession) × σ}
      (run : p.applyFrom source modules session s = some (r, q)) : Reached q
  | removed {p : Host ν} (h : Reached p) (session : ProcessSession) (moduleId : String) :
      Reached (session.removeModule moduleId p).2.2

/-- **Every process that can be reached keeps a ledger.** -/
theorem Reached.orderly {p : Host ν} (h : p.Reached) : p.Orderly := by
  induction h with
  | untouched h willing =>
    refine ⟨_, _, h.keeps, ?_, willing⟩
    intro m hs
    rw [h.table] at hs
    exact absurd rfl hs
  | declare _ className name params ret flags form body ih =>
    obtain ⟨L, elsewhere, k⟩ := ih
    exact ⟨_, _, k.toKeeps.declare className name params ret flags form body, k.tight, k.willing⟩
  | setClassInit _ className init ih => exact ih.same rfl rfl rfl rfl
  | ran _ run ih => exact exec_orderly _ ih run
  | applied _ run ih => exact applyFrom_carries orderly_carried _ _ _ run ih
  | @removed p _ session moduleId ih =>
    exact removeModule_carries orderly_carried session moduleId p ih

/-- **Its hook table came about by its own operations**, however else it was
reached. -/
theorem Reached.tabled {p : Host ν} (h : p.Reached) : p.Tabled := by
  induction h with
  | untouched h _ => exact .empty h.slots h.table
  | declare _ className name params ret flags form body ih =>
    exact ih.operated (.declare className name params ret flags form body)
  | setClassInit _ _ _ ih => exact ih.meanwhile rfl rfl
  | ran _ run ih => exact run_carries tabled_carried _ run ih
  | applied _ run ih => exact applyFrom_carries tabled_carried _ _ _ run ih
  | @removed p _ session moduleId ih =>
    exact removeModule_carries tabled_carried session moduleId p ih

end Host

end Interpose
