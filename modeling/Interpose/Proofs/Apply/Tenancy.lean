/-
Interpose.Proofs.Apply.Tenancy — a session that has a hook table to itself.

A session records the handles of the layers that its modules installed. If
nobody else uses the hook table, this record is complete: the live handles
are those of the applied modules, in the order in which they were given, so
that every layer has one owner and every handle is live. A module that
fails on the way is rolled back by its handles alone, and a module that is
taken out again takes the layers with its id along, which are the same.

Nobody else uses the table if the code in the process is aloof: it neither
installs hooks by itself nor removes any. Methods may be pointed at other
code behind the table's back; of these it is not said what they do once the
table is empty, and of all others that they do what they were declared to.

A call that applies modules may not return, where the code that loads one
panics. Then the session lacks one module of which layers are left
(`tenancy_unwound`).

Main statements: `tenancy_accounts` and `tenancy_unwound`.
-/
import Interpose.Proofs.Apply.Carrying
import Interpose.Proofs.Hook.Orderly

namespace Interpose

variable {ν σ : Type}

/-! ## Aloof code -/

/-- To leave the hook table alone, and to point only these methods at other code. -/
def Permit.aloof (redirected : MethodId → Prop) : Permit where
  install := False
  ask q := (∀ h, q ≠ .remove h) ∧ ∀ moduleId, q ≠ .removeModule moduleId
  redirect := redirected

namespace Host

variable {redirected : MethodId → Prop} {p q : Host ν}

/-- What aloof code leaves as it is: every line of a ledger, and the bodies of
the methods that are not pointed elsewhere. -/
def Spares (redirected : MethodId → Prop) (p q : Host ν) : Prop :=
  ∀ L elsewhere, p.Sound L elsewhere → ∃ bodies elsewhere', q.Sound { L with bodies } elsewhere' ∧
    ∀ m, ¬redirected m → Ledger.body? { L with bodies } m = L.body? m

theorem Spares.same {i : Nat} (hslots : q.slots = p.slots)
    (htable : q.table = { p.table with nextHandle := p.table.nextHandle + i })
    (hentries : ∀ m, (q.method? m).map (·.entry) = (p.method? m).map (·.entry))
    (hrefusals : q.refusals = p.refusals) : Spares redirected p q :=
  fun L elsewhere k =>
    ⟨L.bodies, elsewhere, k.same hslots htable hentries hrefusals, fun _ _ => rfl⟩

theorem Spares.answer (p : Host ν) (q : Query) (hq : (Permit.aloof redirected).ask q) :
    Spares redirected p (p.answer q).2 := by
  cases q with
  | remove h => exact absurd rfl (hq.1 h)
  | removeModule moduleId => exact absurd rfl (hq.2 moduleId)
  | setForm m form => exact .same (i := 0) rfl rfl (fun a => entry_setForm p m a form) rfl
  | deoptimize m =>
    have hidle := p.idle_deoptimize m
    exact .same hidle.slots hidle.table hidle.entries hidle.others.refusals
  | enterApp => exact .same (i := 0) rfl rfl (fun _ => rfl) rfl
  | count c => exact .same (i := 0) rfl rfl (fun _ => rfl) rfl
  | look => exact .same (i := 0) rfl rfl (fun _ => rfl) rfl

/-- Aloof code changes no line. -/
theorem spares_carried : Carried (ν := ν) (.aloof redirected) (Spares redirected) where
  refl := fun _ => .same (i := 0) rfl rfl (fun _ => rfl) rfl
  trans := by
    intro p q r hpq hqr L elsewhere k
    obtain ⟨bodies, elsewhere', k', hbodies⟩ := hpq L elsewhere k
    obtain ⟨bodies', elsewhere'', k'', hbodies'⟩ := hqr _ elsewhere' k'
    exact ⟨bodies', elsewhere'', k'', fun m hm => (hbodies' m hm).trans (hbodies m hm)⟩
  note := fun _ _ => .same (i := 0) rfl rfl (fun _ => rfl) rfl
  setInit := fun _ _ _ => .same (i := 0) rfl rfl (fun _ => rfl) rfl
  answer := .answer
  redirect := by
    intro p m b q hm hq L elsewhere k
    obtain ⟨bodies, elsewhere', k', hothers⟩ := k.redirect hq
    exact ⟨bodies, elsewhere', k', fun a ha => hothers a fun heq => ha (heq ▸ hm)⟩
  install := fun hmay => hmay.elim

end Host

/-! ## Lines and their owners -/

/-- What these modules say of their layers: whose each is, and its handle. -/
def layerTags (placed : List AppliedModule) : List (String × HookHandle) :=
  placed.flatMap fun a => a.handles.map (a.moduleId, ·)

/-- The lines of a ledger are the layers of these modules, one after the other. -/
def Ledger.Held (L : Ledger ν) (placed : List AppliedModule) : Prop :=
  L.lines.map (fun l => (l.moduleId, l.handle)) = layerTags placed

namespace Ledger.Held

variable {L : Ledger ν} {placed before after : List AppliedModule} {a b : AppliedModule}

theorem handles (h : L.Held placed) :
    L.lines.map (·.handle) = placed.flatMap (·.handles) := by
  have hsnd := congrArg (List.map Prod.snd) h
  simp only [layerTags, List.map_map, List.map_flatMap] at hsnd
  simpa [Function.comp_def] using hsnd

theorem nodup (h : L.Held placed) (n : L.Numbered) : (placed.flatMap (·.handles)).Nodup := by
  rw [← h.handles]
  exact (List.pairwise_map.mpr (n.imp fun hlt heq => Nat.ne_of_lt hlt (congrArg _ heq)))

/-- Every line has an owner. -/
theorem owner (h : L.Held placed) {l : Line ν} (hl : l ∈ L.lines) :
    ∃ a ∈ placed, a.moduleId = l.moduleId ∧ l.handle ∈ a.handles := by
  have htag : (l.moduleId, l.handle) ∈ layerTags placed := h ▸ List.mem_map.mpr ⟨l, hl, rfl⟩
  obtain ⟨a, ha, hmem⟩ := List.mem_flatMap.mp htag
  obtain ⟨g, hg, heq⟩ := List.mem_map.mp hmem
  obtain ⟨hid, hhandle⟩ := Prod.mk.inj heq
  exact ⟨a, ha, hid, hhandle ▸ hg⟩

/-- Every handle has a line. -/
theorem line (h : L.Held placed) (ha : a ∈ placed) {g : HookHandle} (hg : g ∈ a.handles) :
    ∃ l ∈ L.lines, l.handle = g ∧ l.moduleId = a.moduleId := by
  have htag : (a.moduleId, g) ∈ layerTags placed :=
    List.mem_flatMap.mpr ⟨a, ha, List.mem_map.mpr ⟨g, hg, rfl⟩⟩
  rw [← h] at htag
  obtain ⟨l, hl, heq⟩ := List.mem_map.mp htag
  obtain ⟨hid, hhandle⟩ := Prod.mk.inj heq
  exact ⟨l, hl, hhandle, hid⟩

/-- **The layers with the id of a module are those with its handles.** -/
theorem moduleId_eq_iff (h : L.Held placed) (n : L.Numbered)
    (distinct : (placed.map (·.moduleId)).Nodup) (ha : a ∈ placed) {l : Line ν}
    (hl : l ∈ L.lines) : l.moduleId = a.moduleId ↔ l.handle ∈ a.handles := by
  constructor
  · intro hid
    obtain ⟨b, hb, hbid, hmem⟩ := h.owner hl
    have hba : b = a := List.inj_on_of_nodup_map distinct hb ha (hbid.trans hid)
    exact hba ▸ hmem
  · intro hmem
    obtain ⟨x, hx, hhandle, hid⟩ := h.line ha hmem
    exact n.eq_of_handle hx hl hhandle ▸ hid

/-- A module that has its turn has no layer yet. -/
theorem begun (h : L.Held placed) (moduleId : String) (priority : Int32) :
    L.Held (placed ++ [{ moduleId, priority, handles := [] }]) := by
  rw [Held, h, layerTags, layerTags, List.flatMap_append]
  exact (List.append_nil _).symm

/-- The module whose turn it is gets one more. -/
theorem install (h : L.Held (placed ++ [a])) (g : HookHandle) (m : MethodId) (hook : Hook ν) :
    (L.install g m hook a.priority a.moduleId).Held
      (placed ++ [{ a with handles := a.handles ++ [g] }]) := by
  have hlines : L.lines.map (fun l => (l.moduleId, l.handle))
      = layerTags placed ++ a.handles.map (a.moduleId, ·) := by
    rw [h, layerTags, layerTags, List.flatMap_append, List.flatMap_singleton]
  rw [Held, Ledger.install, List.map_append, hlines, layerTags, layerTags, List.flatMap_append,
    List.flatMap_singleton, List.map_append, List.append_assoc]
  rfl

/-- **The handles of one module strike out its lines and no others.** -/
theorem removeAll (h : L.Held (before ++ a :: after)) (n : L.Numbered) :
    (L.removeAll a.handles).Held (before ++ after) := by
  have hnodup := h.nodup n
  rw [List.flatMap_append, List.flatMap_cons] at hnodup
  obtain ⟨_, hright, hbefore⟩ := List.nodup_append.mp hnodup
  obtain ⟨_, _, hafter⟩ := List.nodup_append.mp hright
  have hothers : ∀ placed : List AppliedModule,
      (∀ g ∈ placed.flatMap (·.handles), g ∉ a.handles) →
        (layerTags placed).filter (fun t => t.2 ∉ a.handles) = layerTags placed := by
    intro placed hplaced
    refine List.filter_eq_self.mpr fun t ht => decide_eq_true ?_
    obtain ⟨b, hb, hmem⟩ := List.mem_flatMap.mp ht
    obtain ⟨g, hg, rfl⟩ := List.mem_map.mp hmem
    exact hplaced g (List.mem_flatMap.mpr ⟨b, hb, hg⟩)
  have hown : (a.handles.map (a.moduleId, ·)).filter (fun t => t.2 ∉ a.handles) = [] := by
    refine List.filter_eq_nil_iff.mpr fun t ht hnot => ?_
    obtain ⟨g, hg, rfl⟩ := List.mem_map.mp ht
    exact of_decide_eq_true hnot hg
  have hlines : (L.removeAll a.handles).lines.map (fun l => (l.moduleId, l.handle))
      = (layerTags (before ++ a :: after)).filter (fun t => t.2 ∉ a.handles) := by
    rw [← h, List.filter_map]
    rfl
  have htags : layerTags (before ++ a :: after)
      = layerTags before ++ (a.handles.map (a.moduleId, ·) ++ layerTags after) := by
    rw [layerTags, List.flatMap_append, List.flatMap_cons]
    rfl
  rw [Held, hlines, htags, List.filter_append, List.filter_append, hown, List.nil_append,
    hothers before fun g hg hmem => hbefore g hg g (List.mem_append_left _ hmem) rfl,
    hothers after fun g hg hmem => hafter g hmem g hg rfl, layerTags, layerTags, layerTags,
    List.flatMap_append]

end Ledger.Held

/-! ## Holding -/

namespace Host

variable {redirected : MethodId → Prop} {body₀ : MethodId → Option (Body ν)}
variable {placed before after : List AppliedModule} {a : AppliedModule} {p q : Host ν}

/-- The layers of a process are those that these modules say they have, the
code in it is aloof, and the bodies are the declared ones. -/
structure Holds (redirected : MethodId → Prop) (body₀ : MethodId → Option (Body ν))
    (placed : List AppliedModule) (p : Host ν) : Prop where
  within : p.Within (.aloof redirected)
  distinct : (placed.map (·.moduleId)).Nodup
  kept : ∃ L elsewhere, p.Sound L elsewhere ∧ L.Held placed ∧
    ∀ m, ¬redirected m → L.body? m = body₀ m

namespace Holds

/-- Aloof code leaves the layers to their modules. -/
theorem leads (h : Holds redirected body₀ placed p)
    (hpq : Leads (.aloof redirected) (Spares redirected) p q) :
    Holds redirected body₀ placed q := by
  obtain ⟨hwithin, hspares⟩ := hpq h.within
  obtain ⟨L, elsewhere, k, hheld, hbodies⟩ := h.kept
  obtain ⟨bodies, elsewhere', k', hbodies'⟩ := hspares L elsewhere k
  exact ⟨hwithin, h.distinct, _, elsewhere', k', hheld,
    fun m hm => (hbodies' m hm).trans (hbodies m hm)⟩

theorem refused (h : Holds redirected body₀ placed p) {m : MethodId} {hook : Hook ν}
    (hhook : hook.Within (.aloof redirected)) {priority : Int32} {moduleId : String}
    {err : HookError} (hq : p.install m hook priority moduleId = (.error err, q)) :
    Holds redirected body₀ placed q := by
  refine h.leads fun hwithin => ⟨?_, ?_⟩
  · have hinstalled := hwithin.install m hhook priority moduleId
    rwa [hq] at hinstalled
  · intro L elsewhere k
    rcases k.install m hook priority moduleId with ⟨e, q', heq, kq⟩ | ⟨q', heq, _⟩
    · rw [hq] at heq
      cases heq
      exact ⟨L.bodies, elsewhere, kq, fun _ _ => rfl⟩
    · rw [hq] at heq
      cases heq

/-- **A layer more for the module whose turn it is.** -/
theorem installed (h : Holds redirected body₀ (placed ++ [a]) p) {m : MethodId} {hook : Hook ν}
    (hhook : hook.Within (.aloof redirected)) {g : HookHandle}
    (hq : p.install m hook a.priority a.moduleId = (.ok g, q)) :
    Holds redirected body₀ (placed ++ [{ a with handles := a.handles ++ [g] }]) q := by
  obtain ⟨L, elsewhere, k, hheld, hbodies⟩ := h.kept
  have hwithin := h.within.install m hhook a.priority a.moduleId
  have hids := h.distinct
  rw [hq] at hwithin
  rw [List.map_append] at hids
  rcases k.install m hook a.priority a.moduleId with ⟨e, q', heq, _⟩ | ⟨q', heq, kq⟩
  · rw [hq] at heq
    cases heq
  · rw [hq] at heq
    cases heq
    refine ⟨hwithin, ?_, _, elsewhere, kq, hheld.install _ m hook, hbodies⟩
    rw [List.map_append]
    exact hids

/-- **Taking out the handles of one module leaves the layers of the others.** -/
theorem removeAll (h : Holds redirected body₀ (before ++ a :: after) p) :
    Holds redirected body₀ (before ++ after) (p.removeAll a.handles).2 := by
  obtain ⟨L, elsewhere, k, hheld, hbodies⟩ := h.kept
  obtain ⟨elsewhere', kq, _⟩ := k.removeAll a.handles
  have hsub : ((before ++ after).map (·.moduleId)).Sublist
      ((before ++ a :: after).map (·.moduleId)) :=
    ((List.sublist_cons_self a after).append_left before).map _
  exact ⟨h.within.removeAll a.handles, h.distinct.sublist hsub, _, elsewhere', kq,
    hheld.removeAll k.numbered, hbodies⟩

/-- Nothing in applying modules takes a layer from its module. -/
theorem placing : Placing (ν := ν) (.aloof redirected) (Holds redirected body₀) where
  note := fun _ p n hp => hp.leads fun hwithin =>
    ⟨hwithin.same (fun _ => rfl) rfl rfl, spares_carried.note p n⟩
  called := fun depth _ _ _ _ _ hcall hp =>
    hp.leads (callBaseWith_carries spares_carried (enter_carries spares_carried depth) hcall)
  refused := fun _ _ _ _ _ _ _ _ hh hq hp => hp.refused hh hq
  begun := by
    intro placed p moduleId priority hnew hp
    obtain ⟨L, elsewhere, k, hheld, hbodies⟩ := hp.kept
    refine ⟨hp.within, ?_, L, elsewhere, k, hheld.begun moduleId priority, hbodies⟩
    rw [List.map_append]
    exact List.nodup_append_comm.mp (List.nodup_cons.mpr ⟨hnew, hp.distinct⟩)
  installed := fun _ _ _ _ _ _ _ hh hq hp => hp.installed hh hq
  dropped := by
    intro placed a p hp
    have hremoved := hp.removeAll
    rwa [List.append_nil] at hremoved

end Holds

end Host

/-! ## Sessions -/

/-- Taking a module out of a session that carries it. -/
theorem ProcessSession.removeModule_cases (session : ProcessSession) (id : String) (p : Host ν) :
    id ∉ session.moduleIds ∧ session.removeModule id p = (false, session, p) ∨
    ∃ before a after, session.applied = before ++ a :: after ∧ a.moduleId = id ∧
      session.removeModule id p
        = (true, { session with applied := before ++ after }, (p.removeAll a.handles).2) := by
  unfold removeModule
  cases hfound : session.applied.find? (·.moduleId == id) with
  | none =>
    refine .inl ⟨fun hid => ?_, rfl⟩
    obtain ⟨a, ha, heq⟩ := List.mem_map.mp hid
    exact List.find?_eq_none.mp hfound a ha (beq_iff_eq.mpr heq)
  | some a =>
    obtain ⟨ha, before, after, hsplit, hbefore⟩ := List.find?_eq_some_iff_append.mp hfound
    refine .inr ⟨before, a, after, hsplit, beq_iff_eq.mp ha, ?_⟩
    have herase : session.applied.eraseP (·.moduleId == id) = before ++ after := by
      have hnone : ∀ b ∈ before, ¬(b.moduleId == id) = true := fun b hb => by
        simpa using hbefore b hb
      rw [hsplit, List.eraseP_append_right _ hnone]
      exact congrArg _ (List.eraseP_cons_of_pos ha)
    dsimp only
    rw [herase]

namespace Host

variable {redirected : MethodId → Prop} {body₀ : MethodId → Option (Body ν)}
variable {session : ProcessSession} {p₀ p : Host ν}

/-- A session that has the hook table of a process to itself from the start:
modules are applied, whatever they do, by calls that return, and taken out
again, and other code leaves the table alone. -/
inductive Tenancy (redirected : MethodId → Prop) (p₀ : Host ν) : ProcessSession → Host ν → Prop
  | fresh {session : ProcessSession} (h : session.applied = []) : Tenancy redirected p₀ session p₀
  | applied {session session' : ProcessSession} {p q : Host ν}
      (h : Tenancy redirected p₀ session p) {σ : Type} {source : Source ν σ}
      (aloof : source.Within (.aloof redirected)) {modules : List ModuleInfo} {s s' : σ}
      {ended : ApplyEnd} (returns : ∀ message, ended ≠ .unwound message)
      (run : p.applyFrom source modules session s = some (((ended, session'), s'), q)) :
      Tenancy redirected p₀ session' q
  | removed {session : ProcessSession} {p : Host ν} (h : Tenancy redirected p₀ session p)
      (id : String) :
      Tenancy redirected p₀ (session.removeModule id p).2.1 (session.removeModule id p).2.2
  | ran {session : ProcessSession} {p q : Host ν} (h : Tenancy redirected p₀ session p)
      {depth : Nat} {code : Program ν .plain} (aloof : code.Within (.aloof redirected))
      {r : Outcome} (run : exec (enter depth) code () p = some (r, q)) :
      Tenancy redirected p₀ session q

/-- **The layers of the process are those of the session's modules**, as long
as the tenancy lasts. -/
theorem Tenancy.holds (h₀ : p₀.Untouched) (willing : ∀ m, p₀.refusals m = {})
    (aloof : p₀.Within (.aloof redirected)) (h : Tenancy redirected p₀ session p) :
    Holds redirected (Ledger.of p₀).body? session.applied p := by
  induction h with
  | fresh h =>
    rw [h]
    refine ⟨aloof, .nil, _, _, ⟨h₀.keeps, fun m hs => ?_, willing⟩, rfl, fun _ _ => rfl⟩
    rw [h₀.table] at hs
    exact absurd rfl hs
  | applied _ hsource returns run ih =>
    exact (applyFrom_places Holds.placing hsource _ _ _ ih run).of_returns returns
  | @removed session p _ id ih =>
    rcases session.removeModule_cases id p with ⟨_, heq⟩ | ⟨before, a, after, hsplit, _, heq⟩
    · rw [heq]
      exact ih
    · rw [heq]
      rw [hsplit] at ih
      exact ih.removeAll
  | @ran session p q _ depth code hcode r run ih =>
    exact ih.leads (exec_carries spares_carried (enter_carries spares_carried depth) code hcode
      trivial run)

/-! ## Accounts -/

/-- A session accounts for every live layer of a process. -/
structure Accounted (session : ProcessSession) (p : Host ν) : Prop where
  distinct : session.moduleIds.Nodup
  /-- The live handles are those that the modules list, each once. -/
  live : p.table.live.map (·.1) = session.applied.flatMap (·.handles)
  once : (p.table.live.map (·.1)).Nodup
  /-- Every layer has one owner, whose id it carries. -/
  owner : ∀ m, ∀ l ∈ p.layers m, ∃ a ∈ session.applied, a.moduleId = l.moduleId ∧
    l.handle ∈ a.handles ∧ ∀ b ∈ session.applied, l.handle ∈ b.handles → b = a
  /-- Every handle that a module lists is that of a layer. -/
  listed : ∀ a ∈ session.applied, ∀ g ∈ a.handles, ∃ m, p.table.methodOf? g = some m ∧
    ∃ l ∈ p.layers m, l.handle = g ∧ l.moduleId = a.moduleId
  count : session.hookCount = p.table.size

/-- What taking a module out of a session comes to. -/
structure Removes (session : ProcessSession) (p : Host ν) (id : String) : Prop where
  answer : (session.removeModule id p).1 = true ↔ id ∈ session.moduleIds
  others : (session.removeModule id p).2.1.moduleIds = session.moduleIds.erase id
  /-- Every chain is as it was without the module's layers. -/
  chains : ∀ m, (session.removeModule id p).2.2.layers m
    = (p.layers m).filter (·.moduleId ≠ id)

namespace Holds

theorem accounted (h : Holds redirected body₀ session.applied p) : Accounted session p := by
  obtain ⟨L, elsewhere, k, hheld, _⟩ := h.kept
  have hlive : p.table.live.map (·.1) = session.applied.flatMap (·.handles) := by
    rw [k.live, List.map_map]
    exact hheld.handles
  refine ⟨h.distinct, hlive, hlive ▸ hheld.nodup k.numbered, fun m l hl => ?_,
    fun a ha g hg => ?_, ?_⟩
  · rw [k.layers] at hl
    obtain ⟨x, hx, rfl⟩ := List.mem_map.mp hl
    have hline := (Ledger.mem_chain.mp hx).1
    obtain ⟨a, ha, hid, hmem⟩ := hheld.owner hline
    refine ⟨a, ha, hid, hmem, fun b hb hmem' => ?_⟩
    have hid' := (hheld.moduleId_eq_iff k.numbered h.distinct hb hline).mpr hmem'
    exact List.inj_on_of_nodup_map h.distinct hb ha (hid'.symm.trans hid.symm)
  · obtain ⟨l, hl, rfl, hid⟩ := hheld.line ha hg
    refine ⟨l.method, (k.methodOf?_iff _ _).mpr ⟨l, hl, rfl, rfl⟩, l.layer, ?_, rfl, hid⟩
    rw [k.layers]
    exact List.mem_map.mpr ⟨l, Ledger.mem_chain.mpr ⟨hl, rfl⟩, rfl⟩
  · rw [ProcessSession.hookCount, ← hlive, List.length_map, HookTable.size]

theorem removes (h : Holds redirected body₀ session.applied p) (id : String) :
    Removes session p id := by
  obtain ⟨L, elsewhere, k, hheld, _⟩ := h.kept
  have hids := h.distinct
  have howner : ∀ m, ∀ l ∈ p.layers m, ∃ a ∈ session.applied, a.moduleId = l.moduleId :=
    fun m l hl => (h.accounted.owner m l hl).imp fun a ⟨ha, hid, _⟩ => ⟨ha, hid⟩
  rcases session.removeModule_cases id p with ⟨hnone, heq⟩ | ⟨before, a, after, hsplit, rfl, heq⟩
  · refine ⟨by rw [heq]; exact ⟨nofun, fun hid => absurd hid hnone⟩, ?_, fun m => ?_⟩
    · rw [heq, List.erase_of_not_mem hnone]
    · rw [heq]
      refine (List.filter_eq_self.mpr fun l hl => decide_eq_true ?_).symm
      obtain ⟨a, ha, hid⟩ := howner m l hl
      exact fun hlid => hnone (List.mem_map.mpr ⟨a, ha, hid.trans hlid⟩)
  · have hmem : a ∈ session.applied := hsplit ▸ List.mem_append_right before List.mem_cons_self
    obtain ⟨elsewhere', kq, _⟩ := k.removeAll a.handles
    refine ⟨by rw [heq]; exact ⟨fun _ => List.mem_map.mpr ⟨a, hmem, rfl⟩, fun _ => rfl⟩, ?_,
      fun m => ?_⟩
    · rw [hsplit, List.map_append, List.map_cons] at hids
      have hbefore : a.moduleId ∉ before.map (·.moduleId) := fun hid =>
        (List.nodup_append.mp hids).2.2 _ hid _ List.mem_cons_self rfl
      rw [heq, ProcessSession.moduleIds, ProcessSession.moduleIds, hsplit, List.map_append,
        List.map_append, List.map_cons, List.erase_append_right _ hbefore, List.erase_cons_head]
    · have hline : ∀ l ∈ L.chain m, decide (l.handle ∉ a.handles)
          = decide (l.layer.moduleId ≠ a.moduleId) := fun l hl =>
        decide_eq_decide.mpr (not_congr
          (hheld.moduleId_eq_iff k.numbered h.distinct hmem (Ledger.mem_chain.mp hl).1).symm)
      rw [heq, kq.layers, k.layers, Ledger.chain_removeAll, List.filter_map,
        List.filter_congr hline]
      rfl

/-- Without modules the table is empty, and nothing is redirected by it. -/
theorem emptied (h : Holds redirected body₀ [] p) :
    p.table.live = [] ∧ (∀ m, p.table.slot? m = none) ∧
      ∀ m, ¬redirected m → (p.method? m).map (·.entry) = (body₀ m).map .body := by
  obtain ⟨L, elsewhere, k, hheld, hbodies⟩ := h.kept
  have hlines : L.lines = [] := List.map_eq_nil_iff.mp hheld
  have hslot : ∀ m, p.table.slot? m = none := fun m =>
    (k.slot?_eq_none_iff m).mpr (Ledger.chain_eq_nil_iff.mpr fun l hl => by
      rw [hlines] at hl
      exact absurd hl List.not_mem_nil)
  refine ⟨by rw [k.live, hlines]; rfl, hslot, fun m hm => ?_⟩
  rw [k.entries, hslot, hbodies m hm]
  rfl

end Holds

/-- **The hooks of a session account for the whole table** that it has to
itself: every layer is owned by one applied module, every handle that a
module lists is live, and taking a module out answers whether it was there
and takes its layers out of every chain, and no others. Once no module is
left, the table is empty, and every method that code has not pointed
elsewhere has the entry it was declared with. -/
theorem tenancy_accounts (h₀ : p₀.Untouched) (willing : ∀ m, p₀.refusals m = {})
    (aloof : p₀.Within (.aloof redirected)) (h : Tenancy redirected p₀ session p) :
    Accounted session p ∧ (∀ id, Removes session p id) ∧
      (session.applied = [] → p.table.live = [] ∧ (∀ m, p.table.slot? m = none) ∧
        ∀ m, ¬redirected m → (p.method? m).map (·.entry) = (p₀.method? m).map (·.entry)) := by
  have hholds := h.holds h₀ willing aloof
  refine ⟨hholds.accounted, hholds.removes, fun hnone => ?_⟩
  rw [hnone] at hholds
  obtain ⟨hlive, hslot, hentries⟩ := hholds.emptied
  exact ⟨hlive, hslot, fun m hm => (hentries m hm).trans (Ledger.body?_of h₀ m).symm⟩

/-- Two modules hook one method and a third one, which hooked it first, fails;
the two are then taken out one after the other. -/
theorem tenancy_accounts_emptied :
    let p₀ : Host Unit := {
      methods := [{
        info := { id := ⟨1⟩, className := "A", name := "f" }
        entry := .body fun _ => .finish (.ok .null) }] }
    let hook : Hook Unit := { run := fun v => .proceed v.call.args .finish }
    let source : Source Unit Unit := fun e s =>
      (.ready (.hookMethod ⟨1⟩ hook fun _ =>
        .finish (if e.codePath = "bad" then .failed [] else .completed)), s)
    let modules : List ModuleInfo := [
      { moduleId := "bad", priority := 1, entryPoints := [{ codePath := "bad" }] },
      { moduleId := "first", entryPoints := [{ codePath := "first" }] },
      { moduleId := "second", installSeq := 1, entryPoints := [{ codePath := "second" }] }]
    ∃ report session p, p₀.applyFrom source modules { pid := 1, app := {} } ()
        = some (((.report report, session), ()), p) ∧
      report.failed.map (·.moduleId) = ["bad"] ∧ Tenancy (fun _ => False) p₀ session p ∧
      session.moduleIds = ["first", "second"] ∧ p.table.size = 2 ∧
      Removes session p "first" ∧
      let (_, session', p') := session.removeModule "first" p
      let p'' := (session'.removeModule "second" p').2.2
      p''.table.live = [] ∧ ∀ m, (p''.method? m).map (·.entry) = (p₀.method? m).map (·.entry) := by
  intro p₀ hook source modules
  have h₀ : p₀.Untouched := ⟨rfl, rfl, fun x hx => by
    cases List.mem_singleton.mp hx
    exact ⟨_, rfl⟩⟩
  have aloof : p₀.Within (.aloof fun _ => False) :=
    { entries := fun m x hx => by
        cases List.mem_singleton.mp (List.mem_of_find?_eq_some hx)
        exact fun _ => trivial
      bases := fun _ _ hs => nomatch hs
      hooks := fun _ _ hs => nomatch hs
      inits := fun _ _ hc => nomatch hc }
  have hsource : source.Within (.aloof fun _ => False) := fun e s init hinit => by
    cases hinit
    exact ⟨fun _ _ => trivial, fun _ => trivial⟩
  have heval : (p₀.applyFrom source modules { pid := 1, app := {} } ()).map (·.1.1)
      = some (.report {
          applied := ["first", "second"]
          failed := [{
            moduleId := "bad"
            diagnostic := Diagnostic.of .moduleLoadFailure "init failed: " }] },
        { pid := 1, app := {}, failed := ["bad"], applied := [
          { moduleId := "first", priority := 0, handles := [⟨2⟩] },
          { moduleId := "second", priority := 0, handles := [⟨3⟩] }] }) := by
    cbv
  obtain ⟨⟨⟨ended, s⟩, p⟩, hrun, heq⟩ := Option.map_eq_some_iff.mp heval
  cases heq
  have hfresh : Tenancy (fun _ => False) p₀ { pid := 1, app := {} } p₀ := .fresh rfl
  have hbegun := hfresh.applied hsource (fun _ heq => ApplyEnd.noConfusion heq) hrun
  obtain ⟨haccounted, hremoves, _⟩ := tenancy_accounts h₀ (fun _ => rfl) aloof hbegun
  have hdone := tenancy_accounts h₀ (fun _ => rfl) aloof ((hbegun.removed "first").removed "second")
  obtain ⟨hlive, _, hentries⟩ := hdone.2.2 rfl
  exact ⟨_, _, p, hrun, rfl, hbegun, rfl, haccounted.count.symm, hremoves "first", hlive,
    fun m => hentries m not_false⟩

/-- **A call that a panicking load unwinds** leaves the module whose turn it was
half placed, and ends the tenancy: its layers are in the table, and the
session does not list them. It accounts for every other layer as before. -/
theorem tenancy_unwound (h₀ : p₀.Untouched) (willing : ∀ m, p₀.refusals m = {})
    (aloof : p₀.Within (.aloof redirected)) (h : Tenancy redirected p₀ session p) {σ : Type}
    {source : Source ν σ} (hsource : source.Within (.aloof redirected))
    {modules : List ModuleInfo} {s s' : σ} {message : Option String}
    {session' : ProcessSession} {q : Host ν}
    (run : p.applyFrom source modules session s = some (((.unwound message, session'), s'), q)) :
    ∃ a : AppliedModule, a.moduleId ∉ session'.moduleIds ∧
      Accounted { session' with applied := session'.applied ++ [a] } q := by
  obtain ⟨a, hleft⟩ : ∃ a, Holds redirected _ (session'.applied ++ [a]) q :=
    applyFrom_places Holds.placing hsource _ _ _ (h.holds h₀ willing aloof) run
  have hdistinct := hleft.distinct
  rw [List.map_append] at hdistinct
  refine ⟨a, fun hmem => ?_, Holds.accounted hleft⟩
  exact (List.nodup_append.mp hdistinct).2.2 _ hmem _ List.mem_cons_self rfl

end Host

end Interpose
