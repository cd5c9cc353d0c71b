/-
Interpose.Proofs.Hook.Running — what holds of a run, whatever code it runs.

All that code does to a process it does by the requests it makes. So a
relation that holds across each single request holds across a whole run:
`exec_carries`, by induction on the program, and `enter_carries`, by
induction on the depth. `Carried` lists the requests.

What some code never asks for need not be looked at for it. A permit says
which hooks, which requests without code and which new entries code may ask
for; a program is within it if neither it nor any code that it hands over
asks for more, and a process is if all the code in it is, and then it
remains so. All code is within `Permit.any`. Code is quiet unless `may` if
it installs hooks only where `may` holds: that is one permit of many
(`Permit.hooksIf`).
-/
import Interpose.Host.Run
import Interpose.Proofs.Hook.Steps

namespace Interpose

variable {ν : Type}

/-! ## Permits -/

/-- What code may ask for of those requests that others could mind. -/
structure Permit where
  /-- To install hooks. -/
  install : Prop
  /-- To make this request. -/
  ask : Query → Prop
  /-- To point this method's entry at other code, which no hook table hears of. -/
  redirect : MethodId → Prop

namespace Permit

def any : Permit := { install := True, ask := fun _ => True, redirect := fun _ => True }

/-- Everything, but hooks only if `may` holds. -/
def hooksIf (may : Prop) : Permit :=
  { install := may, ask := fun _ => True, redirect := fun _ => True }

end Permit

/-! ## Code within a permit -/

/-- The program, and all code that it hands over, keeps to the permit. -/
def Program.Within (may : Permit) : {ρ : Role} → Program ν ρ → Prop
  | _, .finish _ => True
  | _, .note _ k => k.Within may
  | _, .ask q k => may.ask q ∧ ∀ a, (k a).Within may
  | _, .install _ _ run _ _ k => may.install ∧ (∀ v, (run v).Within may) ∧ ∀ a, (k a).Within may
  | _, .redirect m body k => may.redirect m ∧ (∀ c, (body c).Within may) ∧ ∀ a, (k a).Within may
  | _, .initClass _ k => ∀ a, (k a).Within may
  | _, .invoke _ _ k => ∀ a, (k a).Within may
  | _, .callBase _ _ k => ∀ a, (k a).Within may
  | _, .proceed _ k => ∀ a, (k a).Within may

def Hook.Within (may : Permit) (h : Hook ν) : Prop := ∀ v, (h.run v).Within may

def Entry.Within (may : Permit) : Entry ν → Prop
  | .body b => ∀ c, (b c).Within may
  | .dispatcher _ => True

/-- All code in the process keeps to the permit, that of slots which are not
in use any more included. -/
structure Host.Within (may : Permit) (p : Host ν) : Prop where
  entries : ∀ m x, p.method? m = some x → x.entry.Within may
  bases : ∀ (s : Nat) (slot : Slot ν), p.slots[s]? = some slot → slot.base.Within may
  hooks : ∀ (s : Nat) (slot : Slot ν), p.slots[s]? = some slot →
    ∀ l ∈ slot.layers, l.hook.Within may
  inits : ∀ c init, p.classInits.lookup c = some init → init.Within may

theorem Program.within_any {ρ : Role} (code : Program ν ρ) : code.Within .any := by
  induction code with
  | finish _ => trivial
  | note _ _ ih => exact ih
  | ask _ _ ih => exact ⟨trivial, ih⟩
  | install _ _ _ _ _ _ hrun ih => exact ⟨trivial, hrun, ih⟩
  | redirect _ _ _ hbody ih => exact ⟨trivial, hbody, ih⟩
  | initClass _ _ ih => exact ih
  | invoke _ _ _ ih => exact ih
  | callBase _ _ _ ih => exact ih
  | proceed _ _ ih => exact ih

theorem Hook.within_any (h : Hook ν) : h.Within .any := fun v => (h.run v).within_any

theorem Entry.within_any (e : Entry ν) : e.Within .any := by
  cases e with
  | body b => exact fun c => (b c).within_any
  | dispatcher _ => trivial

theorem Host.within_any (p : Host ν) : p.Within .any where
  entries := fun _ x _ => x.entry.within_any
  bases := fun _ slot _ => slot.base.within_any
  hooks := fun _ _ _ l _ => l.hook.within_any
  inits := fun _ init _ => init.within_any

/-! ## Quiet code -/

/-- The program, and all code that it hands over, installs hooks only if `may` holds. -/
def Program.QuietUnless (may : Prop) : {ρ : Role} → Program ν ρ → Prop
  | _, .finish _ => True
  | _, .note _ k => k.QuietUnless may
  | _, .ask _ k => ∀ a, (k a).QuietUnless may
  | _, .install _ _ run _ _ k =>
    may ∧ (∀ v, (run v).QuietUnless may) ∧ ∀ a, (k a).QuietUnless may
  | _, .redirect _ body k => (∀ c, (body c).QuietUnless may) ∧ ∀ a, (k a).QuietUnless may
  | _, .initClass _ k => ∀ a, (k a).QuietUnless may
  | _, .invoke _ _ k => ∀ a, (k a).QuietUnless may
  | _, .callBase _ _ k => ∀ a, (k a).QuietUnless may
  | _, .proceed _ k => ∀ a, (k a).QuietUnless may

def Hook.QuietUnless (may : Prop) (h : Hook ν) : Prop := ∀ v, (h.run v).QuietUnless may

def Entry.QuietUnless (may : Prop) : Entry ν → Prop
  | .body b => ∀ c, (b c).QuietUnless may
  | .dispatcher _ => True

/-- All code in the process is quiet, that of slots which are not in use any more included. -/
structure Host.QuietUnless (may : Prop) (p : Host ν) : Prop where
  entries : ∀ m x, p.method? m = some x → x.entry.QuietUnless may
  bases : ∀ (s : Nat) (slot : Slot ν), p.slots[s]? = some slot → slot.base.QuietUnless may
  hooks : ∀ (s : Nat) (slot : Slot ν), p.slots[s]? = some slot →
    ∀ l ∈ slot.layers, l.hook.QuietUnless may
  inits : ∀ c init, p.classInits.lookup c = some init → init.QuietUnless may

theorem Program.QuietUnless.within {may : Prop} {ρ : Role} {code : Program ν ρ}
    (h : code.QuietUnless may) : code.Within (.hooksIf may) := by
  induction code with
  | finish _ => trivial
  | note _ _ ih => exact ih h
  | ask _ _ ih => exact ⟨trivial, fun a => ih a (h a)⟩
  | install _ _ _ _ _ _ hrun ih =>
    exact ⟨h.1, fun v => hrun v (h.2.1 v), fun a => ih a (h.2.2 a)⟩
  | redirect _ _ _ hbody ih => exact ⟨trivial, fun c => hbody c (h.1 c), fun a => ih a (h.2 a)⟩
  | initClass _ _ ih => exact fun a => ih a (h a)
  | invoke _ _ _ ih => exact fun a => ih a (h a)
  | callBase _ _ _ ih => exact fun a => ih a (h a)
  | proceed _ _ ih => exact fun a => ih a (h a)

theorem Hook.QuietUnless.within {may : Prop} {h : Hook ν} (hquiet : h.QuietUnless may) :
    h.Within (.hooksIf may) :=
  fun v => (hquiet v).within

theorem Entry.QuietUnless.within {may : Prop} {e : Entry ν} (h : e.QuietUnless may) :
    e.Within (.hooksIf may) := by
  cases e with
  | body b => exact fun c => (h c).within
  | dispatcher _ => trivial

theorem Host.QuietUnless.within {may : Prop} {p : Host ν} (h : p.QuietUnless may) :
    p.Within (.hooksIf may) where
  entries := fun m x hx => (h.entries m x hx).within
  bases := fun s slot hs => (h.bases s slot hs).within
  hooks := fun s slot hs l hl => (h.hooks s slot hs l hl).within
  inits := fun c init hc => (h.inits c init hc).within

variable {may : Permit}

namespace Host

/-! ## Processes within a permit -/

namespace Within

variable {p q : Host ν}

/-- Entries, slots and initialisers are all the code there is. -/
theorem same (h : p.Within may)
    (hentries : ∀ m, (q.method? m).map (·.entry) = (p.method? m).map (·.entry))
    (hslots : q.slots = p.slots) (hinits : q.classInits = p.classInits) :
    q.Within may where
  entries := by
    intro m x hx
    have hentry := hentries m
    rw [hx, Option.map_some] at hentry
    obtain ⟨y, hy, heq⟩ := Option.map_eq_some_iff.mp hentry.symm
    exact heq ▸ h.entries m y hy
  bases := fun s slot hs => h.bases s slot (hslots ▸ hs)
  hooks := fun s slot hs => h.hooks s slot (hslots ▸ hs)
  inits := fun c init hc => h.inits c init (hinits ▸ hc)

theorem idle (h : p.Within may) {i : Nat} (hi : Idle i p q) : q.Within may :=
  h.same hi.entries hi.slots hi.others.classInits

theorem setEntry (h : p.Within may) (m : MethodId) {e : Entry ν} (he : e.Within may) :
    (p.setEntry m e).Within may where
  entries := by
    intro a x hx
    rw [method?_setEntry] at hx
    obtain ⟨y, hy, rfl⟩ := Option.map_eq_some_iff.mp hx
    split
    · exact he
    · exact h.entries a y hy
  bases := h.bases
  hooks := h.hooks
  inits := h.inits

/-- One slot gets other layers. -/
theorem modifySlot (h : p.Within may) (s : Nat) {f : Slot ν → Slot ν}
    (hbase : ∀ x, (f x).base = x.base)
    (hlayers : ∀ x, p.slots[s]? = some x → ∀ l ∈ (f x).layers, l.hook.Within may) :
    ({ p with slots := p.slots.modify s f } : Host ν).Within may where
  entries := h.entries
  bases := by
    intro t slot ht
    have ht' := (List.getElem?_modify f s p.slots t).symm.trans ht
    obtain ⟨x, hx, rfl⟩ := Option.map_eq_some_iff.mp ht'
    split
    · rw [hbase]
      exact h.bases t x hx
    · exact h.bases t x hx
  hooks := by
    intro t slot ht
    have ht' := (List.getElem?_modify f s p.slots t).symm.trans ht
    obtain ⟨x, hx, rfl⟩ := Option.map_eq_some_iff.mp ht'
    split
    · rename_i hst
      subst hst
      exact hlayers x hx
    · exact h.hooks t x hx
  inits := h.inits

theorem install (h : p.Within may) (m : MethodId) {hook : Hook ν}
    (hhook : hook.Within may) (priority : Int32) (moduleId : String) :
    (p.install m hook priority moduleId).2.Within may := by
  rcases p.install_cases m hook priority moduleId with
    ⟨e, q, i, heq, hi⟩ | ⟨s, _, heq⟩ | ⟨_, q, x, hi, hx, heq⟩
  · rw [heq]
    exact h.idle hi
  · rw [heq]
    have hpushed : (p.drawHandle.pushLayer s (p.newLayer m hook priority moduleId)).Within may := by
      refine (h.idle p.idle_drawHandle).modifySlot s (fun _ => rfl) fun x hx l hl => ?_
      rcases List.mem_append.mp (List.mem_mergeSort.mp hl) with hl | hl
      · exact h.hooks s x hx l hl
      · rw [List.mem_singleton.mp hl]
        exact hhook
    exact hpushed.same (fun _ => rfl) rfl rfl
  · rw [heq]
    have hq := h.idle hi
    have hset : (q.setEntry m (.dispatcher q.slots.length)).Within may :=
      hq.setEntry m trivial
    have hslots : ∀ (s : Nat) (slot : Slot ν),
        (q.slots ++ [{ method := m, base := x.entry
                       layers := [p.newLayer m hook priority moduleId] }])[s]? = some slot →
        slot.base.Within may ∧ ∀ l ∈ slot.layers, l.hook.Within may := by
      intro s slot hs
      rw [List.getElem?_append] at hs
      split at hs
      · exact ⟨hq.bases s slot hs, hq.hooks s slot hs⟩
      · rw [List.mem_singleton.mp (List.mem_of_getElem? hs)]
        refine ⟨hq.entries m x hx, fun l hl => ?_⟩
        rw [List.mem_singleton.mp hl]
        exact hhook
    exact
      { entries := hset.entries
        bases := fun s slot hs => (hslots s slot hs).1
        hooks := fun s slot hs => (hslots s slot hs).2
        inits := hset.inits }

/-- A slot that loses layers. -/
theorem setLayers (h : p.Within may) {s : Nat} {ls : List (Layer ν)}
    (hls : ∀ slot, p.slots[s]? = some slot → ∀ l ∈ ls, l ∈ slot.layers) :
    (p.setLayers s ls).Within may :=
  h.modifySlot s (fun _ => rfl) fun x hx l hl => h.hooks s x hx l (hls x hx l hl)

theorem remove (h : p.Within may) (g : HookHandle) : (p.remove g).2.Within may := by
  have hforget : (p.forget g).Within may := h.same (fun _ => rfl) rfl rfl
  unfold Host.remove
  split
  · exact h
  · dsimp only
    split
    · exact hforget
    · rename_i s _
      split
      · exact hforget
      · rename_i slot hslot
        split
        · split
          · exact hforget.setLayers fun _ _ _ hl => absurd hl List.not_mem_nil
          · rename_i hres
            rw [restore_eq_ok hres]
            exact (hforget.setEntry _ (h.bases s slot hslot)).same (fun _ => rfl) rfl rfl
        · refine hforget.setLayers fun x hx l hl => ?_
          rw [Option.some.inj (hx.symm.trans hslot)]
          exact (List.mem_filter.mp hl).1

theorem removeAll (h : p.Within may) (gs : List HookHandle) :
    (p.removeAll gs).2.Within may := by
  induction gs generalizing p with
  | nil => exact h
  | cons g gs ih =>
    rw [removeAll_cons_snd]
    exact ih (h.remove g)

theorem answer (h : p.Within may) (q : Query) : (p.answer q).2.Within may := by
  cases q with
  | remove g => exact h.remove g
  | removeModule moduleId => exact h.removeAll (p.ownedBy moduleId)
  | setForm m form => exact h.same (fun a => entry_setForm p m a form) rfl rfl
  | deoptimize m => exact h.idle (p.idle_deoptimize m)
  | enterApp => exact h.same (fun _ => rfl) rfl rfl
  | count c => exact h.same (fun _ => rfl) rfl rfl
  | look => exact h

end Within

/-! ## Runs -/

/-- A relation that holds across whatever a single request does to a
process, and an install too, if it may be. -/
structure Carried (may : Permit) (R : Host ν → Host ν → Prop) : Prop where
  refl : ∀ p, R p p
  trans : ∀ p q r, R p q → R q r → R p r
  note : ∀ p n, R p (p.addNote n)
  setInit : ∀ p className s, R p (p.setInit className s)
  answer : ∀ p q, may.ask q → R p (p.answer q).2
  redirect : ∀ p m b q, may.redirect m → p.redirect m (.body b) = .ok q → R p q
  install : may.install → ∀ p m hook priority moduleId,
    R p (p.install m hook priority moduleId).2

/-- From a process within the permit to another, across which a relation holds. -/
def Leads (may : Permit) (R : Host ν → Host ν → Prop) (p q : Host ν) : Prop :=
  p.Within may → q.Within may ∧ R p q

/-- A way of running entries across which a relation holds. -/
def EntersCarrying (may : Permit) (R : Host ν → Host ν → Prop) (e : Enter ν) : Prop :=
  ∀ x c p r, x.Within may → e x c p = some r → Leads may R p r.2

/-- The same of a way down. -/
def BelowCarrying (may : Permit) (R : Host ν → Host ν → Prop) : {ρ : Role} → Below ν ρ → Prop
  | .plain, _ => True
  | .layer, below => ∀ args p r, below args p = some r → Leads may R p r.2

section Running

variable {R : Host ν → Host ν → Prop} {e : Enter ν} {p q r : Host ν}

theorem Leads.refl (hR : Carried may R) : Leads may R p p := fun hp => ⟨hp, hR.refl p⟩

theorem Leads.trans (hR : Carried may R) (h : Leads may R p q) (h' : Leads may R q r) :
    Leads may R p r := by
  intro hp
  obtain ⟨hq, hpq⟩ := h hp
  obtain ⟨hr, hqr⟩ := h' hq
  exact ⟨hr, hR.trans p q r hpq hqr⟩

theorem leads_setInit (hR : Carried may R) (className : String) (s : Option InitState) :
    Leads may R p (p.setInit className s) :=
  fun hp => ⟨hp.same (fun _ => rfl) rfl rfl, hR.setInit p className s⟩

theorem ensureInit_carries (hR : Carried may R) (he : EntersCarrying may R e) {className : String}
    {p : Host ν} {a : Except Throwable Unit × Host ν} (h : ensureInit e className p = some a) :
    Leads may R p a.2 := by
  intro hp
  unfold ensureInit at h
  split at h
  · cases h
    exact Leads.refl hR hp
  · dsimp only at h
    split at h
    · cases h
      exact (leads_setInit hR _ _).trans hR (leads_setInit hR _ _) hp
    · rename_i init hinit
      obtain ⟨⟨o, q⟩, hran, rfl⟩ := Option.map_eq_some_iff.mp h
      have hbody : (Entry.body fun _ => init).Within may :=
        fun _ => hp.inits className init hinit
      have hran := he _ _ _ _ hbody hran
      have hq : Leads may R p q := (leads_setInit hR _ _).trans hR hran
      cases o with
      | ok _ => exact hq.trans hR (leads_setInit hR _ _) hp
      | error _ => exact hq.trans hR (leads_setInit hR _ _) hp

theorem invokeWith_carries (hR : Carried may R) (he : EntersCarrying may R e) {m : MethodId}
    {c : Call} {p : Host ν} {a : Outcome × Host ν} (h : invokeWith e m c p = some a) :
    Leads may R p a.2 := by
  intro hp
  unfold invokeWith at h
  split at h
  · cases h
    exact Leads.refl hR hp
  · obtain ⟨⟨o, q⟩, hinit, hr⟩ := Option.bind_eq_some_iff.mp h
    have hq : Leads may R p q := ensureInit_carries hR he hinit
    cases o with
    | error t =>
      cases hr
      exact hq hp
    | ok _ =>
      dsimp only at hr
      split at hr
      · cases hr
        exact hq hp
      · rename_i x hx
        exact hq.trans hR (he _ _ _ _ ((hq hp).1.entries m x hx) hr) hp

theorem callBaseWith_carries (hR : Carried may R) (he : EntersCarrying may R e) {g : HookHandle}
    {c : Call} {p : Host ν} {a : Outcome × Host ν} (h : callBaseWith e g c p = some a) :
    Leads may R p a.2 := by
  intro hp
  unfold callBaseWith at h
  split at h
  · rename_i base hbase
    obtain ⟨m, _, hbase⟩ := Option.bind_eq_some_iff.mp hbase
    obtain ⟨slot, hslot, rfl⟩ := Option.map_eq_some_iff.mp hbase
    obtain ⟨s, _, hs⟩ := Option.bind_eq_some_iff.mp hslot
    exact he _ _ _ _ (hp.bases s slot hs) h hp
  · cases h
    exact Leads.refl hR hp

/-- **Across a run of code within a permit holds whatever holds across each request
that it permits.** -/
theorem exec_carries (hR : Carried may R) (he : EntersCarrying may R e) {ρ : Role}
    (code : Program ν ρ) (hcode : code.Within may) {below : Below ν ρ}
    (hb : BelowCarrying may R below) {p : Host ν} {a : Outcome × Host ν}
    (h : exec e code below p = some a) : Leads may R p a.2 := by
  induction code generalizing p with
  | finish _ =>
    cases h
    exact .refl hR
  | note n k ih =>
    have hnote : Leads may R p (p.addNote n) :=
      fun hp => ⟨hp.same (fun _ => rfl) rfl rfl, hR.note p n⟩
    exact hnote.trans hR (ih hcode hb h)
  | ask q k ih =>
    obtain ⟨hask, hcode⟩ := hcode
    have hanswer : Leads may R p (p.answer q).2 :=
      fun hp => ⟨hp.answer q, hR.answer p q hask⟩
    exact hanswer.trans hR (ih _ (hcode _) hb h)
  | install m expects run priority moduleId k _ ih =>
    obtain ⟨hmay, hrun, hcode⟩ := hcode
    have hhook : Hook.Within may { expects, run } := hrun
    have hinstall : Leads may R p (p.install m { expects, run } priority moduleId).2 :=
      fun hp => ⟨hp.install m hhook priority moduleId, hR.install hmay p m _ priority moduleId⟩
    exact hinstall.trans hR (ih _ (hcode _) hb h)
  | redirect m body k _ ih =>
    obtain ⟨hmay, hbody, hcode⟩ := hcode
    unfold exec at h
    split at h
    · exact ih _ (hcode _) hb h
    · rename_i q hq
      have hredirect : Leads may R p q := fun hp =>
        ⟨redirect_eq_ok hq ▸ hp.setEntry m hbody, hR.redirect p m body q hmay hq⟩
      exact hredirect.trans hR (ih _ (hcode _) hb h)
  | initClass className k ih =>
    obtain ⟨b, hran, h⟩ := Option.bind_eq_some_iff.mp h
    exact (ensureInit_carries hR he hran).trans hR (ih _ (hcode _) hb h)
  | invoke m c k ih =>
    obtain ⟨b, hran, h⟩ := Option.bind_eq_some_iff.mp h
    exact (invokeWith_carries hR he hran).trans hR (ih _ (hcode _) hb h)
  | callBase g c k ih =>
    obtain ⟨b, hran, h⟩ := Option.bind_eq_some_iff.mp h
    exact (callBaseWith_carries hR he hran).trans hR (ih _ (hcode _) hb h)
  | proceed args k ih =>
    obtain ⟨b, hran, h⟩ := Option.bind_eq_some_iff.mp h
    exact (hb _ _ _ hran).trans hR (ih _ (hcode _) trivial h)

theorem descend_carries (hR : Carried may R) (he : EntersCarrying may R e) {m : MethodId}
    {base : Entry ν} (hbase : base.Within may) {this : Option Value} (ls : List (Layer ν))
    (hls : ∀ l ∈ ls, l.hook.Within may) {args : List Value} {p : Host ν}
    {a : Outcome × Host ν} (h : descend e m base this ls args p = some a) :
    Leads may R p a.2 := by
  induction ls generalizing args p a with
  | nil => exact he _ _ _ _ hbase h
  | cons l rest ih =>
    refine exec_carries (ρ := .layer) hR he _ (hls l List.mem_cons_self _) ?_ h
    intro args p a ha
    exact ih (fun l hl => hls l (List.mem_cons_of_mem _ hl)) ha

end Running

/-- **So it does across every call**, however deep calls may nest. -/
theorem enter_carries {R : Host ν → Host ν → Prop} (hR : Carried may R) (depth : Nat) :
    EntersCarrying may R (enter depth) := by
  induction depth with
  | zero => intro x c p r _ h; cases h
  | succ depth ih =>
    intro x c p r hx h
    cases x with
    | body b => exact exec_carries (ρ := .plain) hR ih (b c) (hx c) trivial h
    | dispatcher s =>
      unfold enter at h
      split at h
      · rename_i slot hslot
        intro hp
        exact descend_carries hR ih (hp.bases s slot hslot) _ (hp.hooks s slot hslot) h hp
      · cases h

/-- **Across any run of any code holds whatever holds across each request.** -/
theorem run_carries {R : Host ν → Host ν → Prop} (hR : Carried .any R) {depth : Nat}
    (code : Program ν .plain) {p : Host ν} {r : Outcome × Host ν}
    (h : exec (enter depth) code () p = some r) : R p r.2 :=
  (exec_carries hR (enter_carries hR depth) code code.within_any trivial h p.within_any).2

end Host

end Interpose
