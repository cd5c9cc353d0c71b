/-
Interpose.Proofs.Host.Unhooked — where nothing is hooked, bodies are run by calls alone.

A relation that holds across each request holds across a run of code
(`exec_carries`), and so it does step by step: all that a thread has yet to
run keeps to the permit that its code kept to (`Thread.Within`), and a step
does no more to the process than the request it makes (`step_carries`).

Code that installs no hooks never opens a slot. So, where there is none in
the beginning, no call ever comes to a dispatcher, no layer hands a call
on, and a handle has nothing below it to call; what is left that runs a body
are calls that have come to their method, and initialisers.

Main statements: `Thread.step_carries` and `Lone.bodies_unhooked`.
-/
import Interpose.Proofs.Host.Initialisers
import Interpose.Proofs.Hook.Running
import Interpose.Proofs.Hook.Visits

namespace Interpose

variable {ν : Type}

/-! ## Threads within a permit -/

section Permits

variable (may : Permit)

/-- What is below the layers, and those yet to reach, keep to the permit. -/
structure Visit.Within (v : Visit ν) : Prop where
  base : v.base.Within may
  below : ∀ l ∈ v.below, l.hook.Within may

def Place.Within : {ρ : Role} → Place ν ρ → Prop
  | .plain, _ => True
  | .layer, v => Visit.Within may v

def Purpose.Within : Purpose ν → Prop
  | .resume k place => (∀ r, (k r).Within may) ∧ place.Within may
  | .call _ _ => True

/-- What a thread does next keeps to the permit; whoever removes what is left of a
module's layers may remove each of them. -/
def Now.Within : Now ν → Prop
  | .code k place => k.Within may ∧ place.Within may
  | .enter e _ => e.Within may
  | .walk v _ => v.Within may
  | .drop hs _ k place => (∀ h ∈ hs, may.ask (.remove h)) ∧ (∀ n, (k n).Within may) ∧
      place.Within may
  | .call _ _ | .fetch _ _ | .done _ => True

def Awaiting.Within : Awaiting ν → Prop
  | .resume k place => (∀ r, (k r).Within may) ∧ place.Within may
  | .init _ purpose => purpose.Within may

/-- All that a thread has yet to run keeps to the permit. -/
structure Thread.Within (t : Thread ν) : Prop where
  now : t.now.Within may
  stack : ∀ f ∈ t.stack, f.Within may

end Permits

variable {may : Permit} {R : Host ν → Host ν → Prop} {p p' q : Host ν}

theorem Purpose.Within.next {purpose : Purpose ν} (h : purpose.Within may)
    (r : Except Throwable Unit) : (purpose.next r).Within may := by
  cases purpose with
  | resume k place => exact ⟨h.1 r, h.2⟩
  | call m c => cases r <;> trivial

namespace Thread

open Host (Carried Leads)

variable {t t' : Thread ν} {stack : List (Awaiting ν)} {n : Nat} {e : Sight ν}

/-- What a step leaves: a thread within the permit and a process within it, to
which the relation leads. -/
structure Carries (may : Permit) (R : Host ν → Host ν → Prop) (p : Host ν) (t' : Thread ν)
    (p' : Host ν) : Prop where
  thread : t'.Within may
  host : p'.Within may
  across : R p p'

theorem Carries.of_leads {now : Now ν} (hp : p.Within may) (hlead : Leads may R p q)
    (hnow : now.Within may) (hstack : ∀ f ∈ stack, f.Within may) :
    Carries may R p ⟨now, stack⟩ q :=
  ⟨⟨hnow, hstack⟩, (hlead hp).1, (hlead hp).2⟩

theorem begin_carries (hR : Carried may R) (hp : p.Within may) (className : String)
    (purpose : Purpose ν) (hpurpose : purpose.Within may) (hstack : ∀ f ∈ stack, f.Within may) :
    Carries may R p (begin className purpose stack p).1 (begin className purpose stack p).2 := by
  have hbegun : Leads may R p (p.setInit className (some .running)) :=
    Host.leads_setInit hR className _
  rw [begin]
  split
  next => exact .of_leads hp (.refl hR) (hpurpose.next _) hstack
  next =>
    dsimp only
    split
    next =>
      exact .of_leads hp (hbegun.trans hR (Host.leads_setInit hR className _)) (hpurpose.next _)
        hstack
    next init hinit =>
      have hinit : init.Within may := hp.inits className init hinit
      refine .of_leads hp hbegun (fun _ => hinit) fun f hf => ?_
      rcases List.mem_cons.mp hf with rfl | hf
      · exact hpurpose
      · exact hstack f hf

/-- A request of code within a permit. -/
theorem request_carries (hR : Carried may R)
    (hdrops : ∀ id h, may.ask (.removeModule id) → may.ask (.remove h)) (hp : p.Within may)
    {ρ : Role} {code : Program ν ρ} (hcode : code.Within may) {place : Place ν ρ}
    (hplace : place.Within may) (hstack : ∀ f ∈ stack, f.Within may) :
    Carries may R p (request stack code place p).1 (request stack code place p).2 := by
  have hpush : ∀ {ρ' : Role} {k : Outcome → Program ν ρ'} {place' : Place ν ρ'},
      (∀ r, (k r).Within may) → place'.Within may →
        ∀ f ∈ Awaiting.resume k place' :: stack, f.Within may := by
    intro ρ' k place' hk hplace' f hf
    rcases List.mem_cons.mp hf with rfl | hf
    · exact ⟨hk, hplace'⟩
    · exact hstack f hf
  have hask : ∀ q, may.ask q → Leads may R p (p.answer q).2 :=
    fun q hq hp => ⟨hp.answer q, hR.answer p q hq⟩
  cases code with
  | finish r => exact .of_leads hp (.refl hR) trivial hstack
  | note x k =>
    exact .of_leads hp (fun hp => ⟨hp.same (fun _ => rfl) rfl rfl, hR.note p x⟩)
      ⟨hcode, hplace⟩ hstack
  | ask q k =>
    obtain ⟨hq, hk⟩ := hcode
    cases q with
    | removeModule id =>
      exact .of_leads hp (.refl hR) ⟨fun h _ => hdrops id h hq, hk, hplace⟩ hstack
    | remove h => exact .of_leads hp (hask (.remove h) hq) ⟨hk _, hplace⟩ hstack
    | setForm m form => exact .of_leads hp (hask (.setForm m form) hq) ⟨hk _, hplace⟩ hstack
    | deoptimize m => exact .of_leads hp (hask (.deoptimize m) hq) ⟨hk _, hplace⟩ hstack
    | enterApp => exact .of_leads hp (hask .enterApp hq) ⟨hk _, hplace⟩ hstack
    | count c => exact .of_leads hp (hask (.count c) hq) ⟨hk _, hplace⟩ hstack
    | look => exact .of_leads hp (hask .look hq) ⟨hk _, hplace⟩ hstack
  | install m expects run priority moduleId k =>
    obtain ⟨hmay, hrun, hk⟩ := hcode
    have hhook : Hook.Within may { expects, run } := hrun
    exact .of_leads hp
      (fun hp => ⟨hp.install m hhook priority moduleId, hR.install hmay p m _ priority moduleId⟩)
      ⟨hk _, hplace⟩ hstack
  | redirect m body k =>
    obtain ⟨hmay, hbody, hk⟩ := hcode
    rw [request]
    split
    next => exact .of_leads hp (.refl hR) ⟨hk _, hplace⟩ hstack
    next q hq =>
      exact .of_leads hp
        (fun hp => ⟨Host.redirect_eq_ok hq ▸ hp.setEntry m hbody, hR.redirect p m body q hmay hq⟩)
        ⟨hk _, hplace⟩ hstack
  | initClass c k => exact begin_carries hR hp c (.resume k place) ⟨hcode, hplace⟩ hstack
  | invoke m c k => exact .of_leads hp (.refl hR) trivial (hpush hcode hplace)
  | callBase h c k =>
    rw [request]
    split
    next base hbase =>
      obtain ⟨m, _, hbase⟩ := Option.bind_eq_some_iff.mp hbase
      obtain ⟨slot, hslot, rfl⟩ := Option.map_eq_some_iff.mp hbase
      obtain ⟨s, _, hs⟩ := Option.bind_eq_some_iff.mp hslot
      exact .of_leads hp (.refl hR) (hp.bases s slot hs) (hpush hcode hplace)
    next => exact .of_leads hp (.refl hR) ⟨hcode _, hplace⟩ hstack
  | proceed args k => exact .of_leads hp (.refl hR) hplace (hpush hcode trivial)

/-- **Across a step of a thread within a permit holds whatever holds across each
request that it permits**, and thread and process stay within it. Whoever may
take out a module may take out each of its layers. -/
theorem step_carries (hR : Carried may R)
    (hdrops : ∀ id h, may.ask (.removeModule id) → may.ask (.remove h)) (hp : p.Within may)
    (ht : t.Within may) (h : t.step n p = some (e, t', p')) : Carries may R p t' p' := by
  obtain ⟨now, stack⟩ := t
  obtain ⟨hnow, hstack⟩ := ht
  have hstack : ∀ f ∈ stack, f.Within may := hstack
  cases now with
  | code code place =>
    have hrequest := request_carries hR hdrops hp hnow.1 hnow.2 hstack
    rwa [(Prod.mk.inj (Option.some.inj h)).2] at hrequest
  | call m c =>
    rw [step] at h
    split at h
    next =>
      cases h
      exact .of_leads hp (.refl hR) trivial hstack
    next info _ =>
      have hbegin := begin_carries hR hp info.className (.call m c) trivial hstack
      rwa [(Prod.mk.inj (Option.some.inj h)).2] at hbegin
  | fetch m c =>
    rw [step] at h
    split at h
    next =>
      cases h
      exact .of_leads hp (.refl hR) trivial hstack
    next x hx =>
      cases h
      exact .of_leads hp (.refl hR) (hp.entries m x hx) hstack
  | enter entry c =>
    cases entry with
    | body b =>
      cases h
      exact .of_leads hp (.refl hR) ⟨hnow c, trivial⟩ hstack
    | dispatcher s =>
      rw [step] at h
      split at h
      next => cases h
      next slot hslot =>
        cases h
        exact .of_leads hp (.refl hR) ⟨hp.bases s slot hslot, hp.hooks s slot hslot⟩ hstack
  | walk v args =>
    obtain ⟨since, m, base, this, _ | ⟨l, rest⟩⟩ := v
    · cases h
      exact .of_leads hp (.refl hR) hnow.base hstack
    · cases h
      have hrest : Visit.Within may ⟨since, m, base, this, rest⟩ :=
        ⟨hnow.base, fun l hl => hnow.below l (List.mem_cons_of_mem _ hl)⟩
      exact .of_leads hp (.refl hR) ⟨hnow.below l List.mem_cons_self _, hrest⟩ hstack
  | drop hs gone k place =>
    obtain ⟨hasks, hk, hplace⟩ := hnow
    cases hs with
    | nil =>
      cases h
      exact .of_leads hp (.refl hR) ⟨hk gone, hplace⟩ hstack
    | cons g hs =>
      have hasks' := fun h hh => hasks h (List.mem_cons_of_mem _ hh)
      have hremoved : Leads may R p (p.remove g).2 :=
        fun hp => ⟨hp.remove g, hR.answer p (.remove g) (hasks g List.mem_cons_self)⟩
      rw [step] at h
      split at h
      next heq =>
        cases h
        rw [heq] at hremoved
        exact .of_leads hp hremoved ⟨hasks', hk, hplace⟩ hstack
      next heq =>
        cases h
        rw [heq] at hremoved
        exact .of_leads hp hremoved ⟨hasks', hk, hplace⟩ hstack
  | done r =>
    obtain ⟨⟨t'', p''⟩, hback, heq⟩ := Option.map_eq_some_iff.mp h
    cases heq
    cases stack with
    | nil => cases hback
    | cons f stack =>
      have hbelow := fun f hf => hstack f (List.mem_cons_of_mem _ hf)
      have hframe := hstack f List.mem_cons_self
      cases f with
      | resume k place =>
        cases hback
        exact .of_leads hp (.refl hR) ⟨hframe.1 r, hframe.2⟩ hbelow
      | init c purpose =>
        cases r with
        | ok v =>
          cases hback
          exact .of_leads hp (Host.leads_setInit hR c _) (Purpose.Within.next hframe _) hbelow
        | error e =>
          cases hback
          exact .of_leads hp (Host.leads_setInit hR c _) (Purpose.Within.next hframe _) hbelow

end Thread

/-! ## Where there are no slots -/

namespace Host

theorem base?_of_slots (h : p.slots = []) (g : HookHandle) : p.base? g = none := by
  rw [base?, Option.bind_eq_none_iff]
  intro m _
  rw [slot?, h]
  cases p.table.slot? m <;> rfl

theorem slots_remove (h : p.slots = []) (g : HookHandle) : (p.remove g).2.slots = [] := by
  have hforget : (p.forget g).slots = [] := h
  rw [remove]
  split
  next => exact h
  next =>
    dsimp only
    split
    next => exact h
    next =>
      rw [hforget]
      exact h

theorem slots_removeAll (h : p.slots = []) (gs : List HookHandle) :
    (p.removeAll gs).2.slots = [] := by
  induction gs generalizing p with
  | nil => exact h
  | cons g gs ih =>
    rw [removeAll_cons_snd]
    exact ih (slots_remove h g)

/-- Code that installs no hooks opens no slots. -/
theorem unslotted_carried :
    Carried (ν := ν) (.hooksIf False) fun p q => p.slots = [] → q.slots = [] where
  refl := fun _ h => h
  trans := fun _ _ _ hpq hqr h => hqr (hpq h)
  note := fun _ _ h => h
  setInit := fun _ _ _ h => h
  answer := by
    intro p q _ h
    cases q with
    | remove g => exact slots_remove h g
    | removeModule moduleId => exact slots_removeAll h _
    | deoptimize m => exact (p.idle_deoptimize m).slots.trans h
    | setForm | enterApp | count | look => exact h
  redirect := fun _ _ _ _ _ hq h => redirect_eq_ok hq ▸ h
  install := fun hmay => hmay.elim

end Host

/-- Without slots, no call begins its way through a dispatcher. -/
theorem Thread.visits_of_step {n : Nat} {t t' : Thread ν} {e : Sight ν} (hslots : p.slots = [])
    (ht : t.visits = []) (h : t.step n p = some (e, t', p')) : t'.visits = [] := by
  cases step_moves h with
  | quiet fewer =>
    rw [ht] at fewer
    exact List.sublist_nil.mp fewer
  | enter _ found =>
    rw [hslots] at found
    cases found
  | visit before =>
    rw [ht] at before
    cases before
  | reach before =>
    rw [ht] at before
    cases before

/-- And nobody calls through to a body. -/
theorem Thread.not_enters_through {n : Nat} {t t' : Thread ν} {e : Sight ν} {b : Body ν}
    {args : Call} (hslots : p.slots = []) (ht : t.visits = [])
    (h : t.step n p = some (e, t', p')) (hthrough : CallsThrough t.now) :
    t'.now ≠ .enter (.body b) args := by
  obtain ⟨now, stack⟩ := t
  cases hthrough with
  | walk => cases ht
  | callBase =>
    rw [step, request, Host.base?_of_slots hslots] at h
    cases h
    intro heq
    cases heq

/-! ## One thread -/

namespace Lone

open Host (Carried)

variable {p₀ : Host ν} {code : Program ν .plain}

/-- **A run of one thread, step by step**: thread and process stay within the
permit, and the relation leads from the beginning to every moment. -/
theorem after_carries (hR : Carried may R)
    (hdrops : ∀ id h, may.ask (.removeModule id) → may.ask (.remove h)) (hp : p₀.Within may)
    (hcode : code.Within may) (k : Nat) :
    Thread.Carries may R p₀ (after p₀ code k).thread (after p₀ code k).host := by
  induction k with
  | zero => exact ⟨⟨⟨hcode, trivial⟩, fun f hf => absurd hf List.not_mem_nil⟩, hp, hR.refl p₀⟩
  | succ k ih =>
    rw [after, next]
    split
    next t p hstep =>
      have hcarries := Thread.step_carries hR hdrops ih.host ih.thread hstep
      exact ⟨hcarries.thread, hcarries.host, hR.trans _ _ _ ih.across hcarries.across⟩
    next => exact ih

theorem slots_after (hslots : p₀.slots = []) (hp : p₀.Within (.hooksIf False))
    (hcode : code.Within (.hooksIf False)) (k : Nat) : (after p₀ code k).host.slots = [] :=
  (after_carries Host.unslotted_carried (fun _ _ _ => trivial) hp hcode k).across hslots

theorem visits_after (hslots : p₀.slots = []) (hp : p₀.Within (.hooksIf False))
    (hcode : code.Within (.hooksIf False)) (k : Nat) : (after p₀ code k).thread.visits = [] := by
  induction k with
  | zero => rfl
  | succ k ih =>
    rw [after, next]
    split
    next t p hstep => exact Thread.visits_of_step (slots_after hslots hp hcode k) ih hstep
    next => exact ih

/-- **Where nothing is hooked and no code installs hooks, bodies are run by calls
that have come to them, and by initialisers, alone**, whatever handles are
called and whatever is asked for besides. -/
theorem bodies_unhooked (h₀ : p₀.initState = []) (hslots : p₀.slots = [])
    (hp : p₀.Within (.hooksIf False)) (hcode : code.Within (.hooksIf False)) {k : Nat}
    {b : Body ν} {args : Call} (hnow : (after p₀ code (k + 1)).thread.now = .enter (.body b) args) :
    (∃ m x, (after p₀ code k).thread.now = .fetch m args ∧
      (after p₀ code k).host.method? m = some x ∧ x.entry = .body b) ∨
    ∃ c, Begins p₀ code c k := by
  rcases enters_cases h₀ hnow with hfetch | hbegins | hthrough
  · exact .inl hfetch
  · exact .inr hbegins
  · have hunslotted := slots_after hslots hp hcode k
    have hunvisited := visits_after hslots hp hcode k
    rw [after, next] at hnow
    split at hnow
    next hstep => exact absurd hnow (Thread.not_enters_through hunslotted hunvisited hstep hthrough)
    next =>
      rw [hnow] at hthrough
      cases hthrough

end Lone

end Interpose
