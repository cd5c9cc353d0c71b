/-
Interpose.Proofs.Hook.Later — what later processes keep of earlier ones.

A layer that is there keeps its handle, its module and its priority; it may
go, and it does not come back. Layers that were not there have handles that
nobody had. This holds across each request that code can make, and so
across every run (`later_carried`); and where code installs no hooks, no
layer comes at all.
-/
import Interpose.Proofs.Hook.Keeping
import Interpose.Proofs.Hook.Running

namespace Interpose.Host

variable {ν : Type} {may : Prop} {p q : Host ν}

/-- What a later process keeps of an earlier one's ledger: lines may have
gone, and those that have come have new handles, and come only if `may`
holds. -/
structure Later (may : Prop) (p q : Host ν) : Prop where
  drawn : p.table.nextHandle ≤ q.table.nextHandle
  lines : ∀ L elsewhere, p.Keeps L elsewhere → ∃ M elsewhere', q.Keeps M elsewhere' ∧
    ∀ l ∈ M.lines, l ∈ L.lines ∨ (may ∧ p.table.nextHandle ≤ l.handle.raw)

/-- A later process that keeps the same ledger. -/
theorem Later.same {i : Nat} (hslots : q.slots = p.slots)
    (htable : q.table = { p.table with nextHandle := p.table.nextHandle + i })
    (hentries : ∀ m, (q.method? m).map (·.entry) = (p.method? m).map (·.entry)) :
    Later may p q where
  drawn := by
    rw [htable]
    exact Nat.le_add_right _ _
  lines := fun L elsewhere k =>
    ⟨L, elsewhere, k.same hslots htable hentries, fun _ hl => .inl hl⟩

theorem Later.idle {i : Nat} (h : Idle i p q) : Later may p q :=
  .same h.slots h.table h.entries

theorem nextHandle_remove (p : Host ν) (h : HookHandle) :
    (p.remove h).2.table.nextHandle = p.table.nextHandle := by
  unfold remove
  split
  · rfl
  · dsimp only
    split
    · rfl
    · split
      · rfl
      · split
        · split
          · rfl
          · rename_i hres
            rw [restore_eq_ok hres]
            rfl
        · rfl

theorem nextHandle_removeAll (p : Host ν) (hs : List HookHandle) :
    (p.removeAll hs).2.table.nextHandle = p.table.nextHandle := by
  induction hs generalizing p with
  | nil => rfl
  | cons h hs ih => rw [removeAll_cons_snd, ih, nextHandle_remove]

theorem Later.removeAll (p : Host ν) (hs : List HookHandle) :
    Later may p (p.removeAll hs).2 where
  drawn := Nat.le_of_eq (nextHandle_removeAll p hs).symm
  lines := by
    intro L elsewhere k
    obtain ⟨elsewhere', k', _⟩ := k.removeAll hs
    exact ⟨_, elsewhere', k', fun l hl => .inl (List.mem_filter.mp hl).1⟩

theorem Later.remove (p : Host ν) (h : HookHandle) : Later may p (p.remove h).2 where
  drawn := Nat.le_of_eq (nextHandle_remove p h).symm
  lines := by
    intro L elsewhere k
    obtain ⟨elsewhere', k', _⟩ := k.remove h
    exact ⟨_, elsewhere', k', fun l hl => .inl (List.mem_filter.mp hl).1⟩

theorem Later.answer (p : Host ν) (q : Query) : Later may p (p.answer q).2 := by
  cases q with
  | remove h => exact .remove p h
  | removeModule moduleId => exact .removeAll p (p.ownedBy moduleId)
  | setForm m form => exact .same (i := 0) rfl rfl fun a => entry_setForm p m a form
  | deoptimize m => exact .idle (p.idle_deoptimize m)
  | enterApp => exact .same (i := 0) rfl rfl fun _ => rfl
  | count c => exact .same (i := 0) rfl rfl fun _ => rfl
  | look => exact .same (i := 0) rfl rfl fun _ => rfl

theorem nextHandle_install (p : Host ν) (m : MethodId) (hook : Hook ν) (priority : Int32)
    (moduleId : String) :
    p.table.nextHandle ≤ (p.install m hook priority moduleId).2.table.nextHandle := by
  rcases p.install_cases m hook priority moduleId with
    ⟨e, q, i, heq, hi⟩ | ⟨s, _, heq⟩ | ⟨_, q, x, hi, _, heq⟩
  · rw [heq, hi.table]
    exact Nat.le_add_right _ _
  · rw [heq]
    exact Nat.le_succ _
  · rw [heq]
    show _ ≤ q.table.nextHandle
    rw [hi.table]
    exact Nat.le_succ _

theorem Later.install (hmay : may) (p : Host ν) (m : MethodId) (hook : Hook ν)
    (priority : Int32) (moduleId : String) :
    Later may p (p.install m hook priority moduleId).2 where
  drawn := nextHandle_install p m hook priority moduleId
  lines := by
    intro L elsewhere k
    rcases k.install m hook priority moduleId with ⟨e, q, i, heq, kq, _⟩ | ⟨q, heq, kq⟩
    · rw [heq]
      exact ⟨L, elsewhere, kq, fun _ hl => .inl hl⟩
    · rw [heq]
      refine ⟨_, elsewhere, kq, fun l hl => ?_⟩
      rcases List.mem_append.mp hl with hl | hl
      · exact .inl hl
      · rw [List.mem_singleton.mp hl]
        exact .inr ⟨hmay, Nat.le_refl _⟩

/-- No request does more to the layers that are there than to take some out. -/
theorem later_carried {may : Permit} : Carried (ν := ν) may (Later may.install) where
  refl := fun p => .same (i := 0) rfl rfl fun _ => rfl
  trans := by
    intro p q r hpq hqr
    refine ⟨Nat.le_trans hpq.drawn hqr.drawn, fun L elsewhere k => ?_⟩
    obtain ⟨M, _, kM, hM⟩ := hpq.lines L elsewhere k
    obtain ⟨N, elsewhere', kN, hN⟩ := hqr.lines M _ kM
    refine ⟨N, elsewhere', kN, fun l hl => ?_⟩
    rcases hN l hl with hl | ⟨hmay, hnew⟩
    · exact hM l hl
    · exact .inr ⟨hmay, Nat.le_trans hpq.drawn hnew⟩
  note := fun p n => .same (i := 0) rfl rfl fun _ => rfl
  setInit := fun p className s => .same (i := 0) rfl rfl fun _ => rfl
  answer := fun p q _ => .answer p q
  redirect := by
    intro p m b q _ hq
    refine ⟨Nat.le_of_eq (by rw [redirect_eq_ok hq]; rfl), fun L elsewhere k => ?_⟩
    obtain ⟨bodies, elsewhere', k', _⟩ := k.redirect hq
    exact ⟨_, elsewhere', k', fun _ hl => .inl hl⟩
  install := .install

end Interpose.Host
