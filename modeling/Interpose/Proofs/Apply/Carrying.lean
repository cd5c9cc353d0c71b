/-
Interpose.Proofs.Apply.Carrying — what holds across applying modules, whatever they do.

Applying modules is a row of few things: a module has its turn, its
callbacks leave notes, call what lies below hooks and install hooks of
their own, and a module that is dropped has its layers taken out again.
What none of these undoes holds all the way. It may speak of the modules
that have been placed, the last of which may still be at work (`Placing`).
`applyFrom_places` goes up from callbacks to entry points, to modules and
to lists, by induction on each.

None of it is anything that code could not ask for. So what holds across
every request that code makes holds across applying any list of modules as
well: `applyFrom_carries`.
-/
import Interpose.Proofs.Apply.Accounts
import Interpose.Proofs.Apply.Callback

namespace Interpose

variable {ν σ : Type}

namespace Host

/-! ## Placing -/

/-- What is said of the modules placed so far and the process, and is not
undone by placing another one, to whatever end that comes. -/
structure Placing (may : Permit) (P : List AppliedModule → Host ν → Prop) : Prop where
  note : ∀ placed p n, P placed p → P placed (p.addNote n)
  called : ∀ depth placed p g c a, callBaseWith (enter depth) g c p = some a → P placed p →
    P placed a.2
  refused : ∀ placed p m (h : Hook ν) priority moduleId err q, h.Within may →
    p.install m h priority moduleId = (.error err, q) → P placed p → P placed q
  /-- A module has its turn. -/
  begun : ∀ placed p moduleId priority, moduleId ∉ placed.map (·.moduleId) → P placed p →
    P (placed ++ [{ moduleId, priority, handles := [] }]) p
  installed : ∀ placed a p m (h : Hook ν) g q, h.Within may →
    p.install m h a.priority a.moduleId = (.ok g, q) → P (placed ++ [a]) p →
    P (placed ++ [{ a with handles := a.handles ++ [g] }]) q
  dropped : ∀ placed a p, P (placed ++ [a]) p → P placed (p.removeAll a.handles).2

/-- What is left of a module that has come to an end. -/
def ModuleEnd.Leaves (P : List AppliedModule → Host ν → Prop) (placed : List AppliedModule)
    (m : ModuleInfo) (q : Host ν) : ModuleEnd → Prop
  | .applied hs _ =>
    P (placed ++ [{ moduleId := m.moduleId, priority := m.priority, handles := hs }]) q
  | .dropped _ => P placed q
  | .unwound _ =>
    ∃ hs, P (placed ++ [{ moduleId := m.moduleId, priority := m.priority, handles := hs }]) q

/-- What is left of a list of modules; one whose loading panics stands as it is. -/
def ApplyEnd.Leaves (P : List AppliedModule → Host ν → Prop) (placed : List AppliedModule)
    (q : Host ν) : ApplyEnd → Prop
  | .report _ => P placed q
  | .tooLate => P placed q
  | .unwound _ => ∃ a, P (placed ++ [a]) q

/-- A call that returns leaves no module half placed. -/
theorem ApplyEnd.Leaves.of_returns {P : List AppliedModule → Host ν → Prop}
    {placed : List AppliedModule} {q : Host ν} {ended : ApplyEnd} (h : ended.Leaves P placed q)
    (returns : ∀ message, ended ≠ .unwound message) : P placed q := by
  cases ended with
  | report r => exact h
  | tooLate => exact h
  | unwound message => exact absurd rfl (returns message)

section Placing

variable {may : Permit} {P : List AppliedModule → Host ν → Prop} {source : Source ν σ}
variable {placed : List AppliedModule} {p : Host ν}

/-- A callback places layers for the module whose turn it is. -/
theorem Placing.upholds (hP : Placing may P) (ctx : HookContext) (depth : Nat)
    (placed : List AppliedModule) (before : List HookHandle) :
    ctx.Upholds may (enter depth) fun hs p => P (placed ++
      [{ moduleId := ctx.moduleId, priority := ctx.priority, handles := before ++ hs }]) p where
  note := fun _ p n hp => hP.note _ p n hp
  called := fun _ p g c a hcall hp => hP.called depth _ p g c a hcall hp
  refused := fun _ p m h err q hh hq hp => hP.refused _ p m h _ _ err q hh hq hp
  installed := by
    intro hs p m h g q hh hq hp
    have hpushed := hP.installed _ _ p m h g q hh hq hp
    rwa [List.append_assoc] at hpushed

theorem runEntries_places (hP : Placing may P) (hsource : source.Within may) (ctx : HookContext)
    (es : List EntryPoint) (r : InitRecord) (s : σ)
    (hp : P (placed ++
      [{ moduleId := ctx.moduleId, priority := ctx.priority, handles := r.installed }]) p)
    {a : ((EntriesEnd × InitRecord) × σ) × Host ν} (h : runEntries ctx source es r s p = some a) :
    P (placed ++ [{ moduleId := ctx.moduleId, priority := ctx.priority,
                    handles := a.1.1.2.installed }]) a.2 := by
  induction es generalizing r s p with
  | nil =>
    cases h
    exact hp
  | cons e es ih =>
    have hinit := hsource e s
    unfold runEntries at h
    cases hload : source e s with
    | mk loaded s' =>
      rw [hload] at h hinit
      cases loaded with
      | refused err =>
        cases h
        exact hp
      | panicked message =>
        cases h
        exact hp
      | ready init =>
        obtain ⟨⟨⟨ended, mine⟩, q⟩, hrun, ha⟩ := Option.bind_eq_some_iff.mp h
        have hq := HookContext.run_upholds (hP.upholds ctx callDepth placed r.installed) init
          (hinit init rfl)  (by rwa [List.append_nil]) hrun
        cases ended with
        | completed => exact ih _ _ hq ha
        | failed chain =>
          cases ha
          exact hq
        | panicked message =>
          cases ha
          exact hq

theorem applyModule_places (hP : Placing may P) (hsource : source.Within may)
    (app : AppDescriptor) (m : ModuleInfo) (s : σ)
    (hnew : m.moduleId ∉ placed.map (·.moduleId)) (hp : P placed p)
    {a : (ModuleEnd × σ) × Host ν} (h : applyModule source app m s p = some a) :
    a.1.1.Leaves P placed m a.2 := by
  unfold applyModule at h
  split at h
  · cases h
    exact hp
  · obtain ⟨⟨⟨⟨ended, r⟩, s'⟩, q⟩, hrun, rfl⟩ := Option.map_eq_some_iff.mp h
    have hq := runEntries_places hP hsource _ _ _ _ (hP.begun _ _ m.moduleId m.priority hnew hp)
      hrun
    cases ended with
    | completed => exact hq
    | failed why => exact hP.dropped _ _ _ hq
    | unwound message => exact ⟨_, hq⟩

theorem applyEach_places (hP : Placing may P) (hsource : source.Within may)
    (ms : List ModuleInfo) (session : ProcessSession) (r : ApplyReport) (s : σ)
    (hp : P session.applied p) {a : ((ApplyEnd × ProcessSession) × σ) × Host ν}
    (h : applyEach source ms session r s p = some a) :
    a.1.1.1.Leaves P a.1.1.2.applied a.2 := by
  induction ms generalizing session r s p with
  | nil =>
    cases h
    exact hp
  | cons m ms ih =>
    unfold applyEach at h
    split at h
    · exact ih _ _ _ hp h
    · rename_i hnew
      obtain ⟨⟨⟨ended, s'⟩, q⟩, hm, ha⟩ := Option.bind_eq_some_iff.mp h
      rw [ProcessSession.isApplied_iff] at hnew
      have hq := applyModule_places hP hsource session.app m s hnew hp hm
      cases ended with
      | applied hs ds => exact ih (session.pushApplied _) _ _ hq ha
      | dropped why =>
        have hsame : (session.pushFailed m.moduleId).applied = session.applied := by
          rw [ProcessSession.pushFailed_eq]
        exact ih (session.pushFailed m.moduleId) _ _ (hsame ▸ hq) ha
      | unwound message =>
        cases ha
        exact hq.elim fun hs hq => ⟨_, hq⟩

/-- **What placing a module does not undo, applying a list of modules does
not undo**, to whatever ends the modules come. -/
theorem applyFrom_places (hP : Placing may P) (hsource : source.Within may)
    (modules : List ModuleInfo) (session : ProcessSession) (s : σ) (hp : P session.applied p)
    {a : ((ApplyEnd × ProcessSession) × σ) × Host ν}
    (h : p.applyFrom source modules session s = some a) :
    a.1.1.1.Leaves P a.1.1.2.applied a.2 := by
  unfold applyFrom at h
  split at h
  · cases h
    exact hp
  · exact applyEach_places hP hsource _ _ _ _ hp h

end Placing

/-! ## Relations that hold across requests -/

section Carrying

variable {R : Host ν → Host ν → Prop} {source : Source ν σ} {p : Host ν}

theorem removeAll_carries (hR : Carried .any R) (hs : List HookHandle) (p : Host ν) :
    R p (p.removeAll hs).2 := by
  induction hs generalizing p with
  | nil => exact hR.refl p
  | cons h hs ih =>
    rw [removeAll_cons_snd]
    exact hR.trans _ _ _ (hR.answer p (.remove h) trivial) (ih _)

/-- Placing a module is no more than requests. -/
theorem Carried.placing (hR : Carried .any R) (p : Host ν) :
    Placing .any fun _ q => R p q where
  note := fun _ q n hq => hR.trans _ _ _ hq (hR.note q n)
  called := fun depth _ q _ _ _ hcall hq => hR.trans _ _ _ hq
    (callBaseWith_carries hR (enter_carries hR depth) hcall q.within_any).2
  refused := by
    intro _ q m h priority moduleId _ q' _ heq hq
    have hnext := hR.install trivial q m h priority moduleId
    rw [heq] at hnext
    exact hR.trans _ _ _ hq hnext
  begun := fun _ _ _ _ _ hq => hq
  installed := by
    intro _ a q m h _ q' _ heq hq
    have hnext := hR.install trivial q m h a.priority a.moduleId
    rw [heq] at hnext
    exact hR.trans _ _ _ hq hnext
  dropped := fun _ a q hq => hR.trans _ _ _ hq (removeAll_carries hR a.handles q)

/-- **Across applying modules holds whatever holds across each request**, to
whatever end the modules come. -/
theorem applyFrom_carries (hR : Carried .any R) (modules : List ModuleInfo)
    (session : ProcessSession) (s : σ) {a : ((ApplyEnd × ProcessSession) × σ) × Host ν}
    (h : p.applyFrom source modules session s = some a) : R p a.2 := by
  have hleft := applyFrom_places (hR.placing p) source.within_any modules session s (hR.refl p) h
  revert hleft
  cases a.1.1.1 with
  | report r => exact id
  | tooLate => exact id
  | unwound message => exact fun ⟨_, hq⟩ => hq

/-- And across taking a module out again. -/
theorem removeModule_carries (hR : Carried .any R) (session : ProcessSession) (moduleId : String)
    (p : Host ν) : R p (session.removeModule moduleId p).2.2 := by
  unfold ProcessSession.removeModule
  split
  · exact hR.refl p
  · exact removeAll_carries hR _ p

end Carrying

end Host

end Interpose
