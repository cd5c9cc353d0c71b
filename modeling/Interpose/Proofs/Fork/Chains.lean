/-
Interpose.Proofs.Fork.Chains — along every chain, modules stand as they were applied.

Modules are applied one after another, by falling priority, and each layer
has a higher handle than all before it. A chain is ordered by priority and
then by handle. So the layers of two modules stand in it as the two modules
were applied, and nothing that code does in between can change that: a
layer that is there stays the layer it is.

`Places` says of a process that its layers are those of these modules, and
nothing in applying modules undoes it (`places_placing`). Layers that are
no module's are there only if code installs hooks by itself.

Main statements: `places_placing` and `Places.follows`.
-/
import Interpose.Proofs.Apply.Carrying
import Interpose.Proofs.Fork.Trail
import Interpose.Proofs.Hook.Later
import Interpose.Proofs.Module.Order

namespace Interpose

variable {ν σ : Type}

/-! ## Order among texts -/

/-- These texts are all in a list, and stand as they stand there. -/
structure Follows (xs ids : List String) : Prop where
  mem : ∀ x ∈ xs, x ∈ ids
  order : xs.Pairwise fun x y => x = y ∨ [x, y].Sublist ids

theorem Follows.mono {xs ids all : List String} (h : Follows xs ids) (hsub : ids.Sublist all) :
    Follows xs all where
  mem := fun x hx => hsub.subset (h.mem x hx)
  order := h.order.imp fun hxy => hxy.imp_right fun hids => hids.trans hsub

/-- Of two members of a list one comes first, unless they are the same. -/
theorem sublist_of_mem {α : Type} {l : List α} {a b : α} (ha : a ∈ l) (hb : b ∈ l) :
    a = b ∨ [a, b].Sublist l ∨ [b, a].Sublist l := by
  have hall : l.Pairwise fun a b => a = b ∨ [a, b].Sublist l ∨ [b, a].Sublist l :=
    List.pairwise_iff_forall_sublist.mpr fun hab => .inr (.inl hab)
  refine List.Pairwise.forall_of_forall_of_flip (fun _ _ => .inl rfl) hall ?_ ha hb
  exact hall.imp fun h => h.elim (fun heq => .inl heq.symm) fun h => .inr h.symm

/-! ## Lines of modules -/

/-- The lines with the handles of these modules are the modules' own, and
there are no others unless `may` holds. -/
structure Ledger.Owned (may : Prop) (L : Ledger ν) (placed : List AppliedModule) : Prop where
  own : ∀ a ∈ placed, ∀ l ∈ L.lines, l.handle ∈ a.handles →
    l.moduleId = a.moduleId ∧ l.priority = a.priority
  all : ∀ l ∈ L.lines, may ∨ ∃ a ∈ placed, l.handle ∈ a.handles

namespace Ledger.Owned

variable {may : Prop} {L : Ledger ν} {placed : List AppliedModule} {a : AppliedModule}

/-- A module without layers owns what it has. -/
theorem begin (h : L.Owned may placed) (moduleId : String) (priority : Int32) :
    L.Owned may (placed ++ [{ moduleId, priority, handles := [] }]) where
  own := by
    intro a ha l hl hmem
    rcases List.mem_append.mp ha with ha | ha
    · exact h.own a ha l hl hmem
    · rw [List.mem_singleton.mp ha] at hmem
      exact absurd hmem List.not_mem_nil
  all := fun l hl => (h.all l hl).imp_right fun ⟨a, ha, hmem⟩ =>
    ⟨a, List.mem_append_left _ ha, hmem⟩

/-- The last module gets a line with a handle that nobody has. -/
theorem install (h : L.Owned may (placed ++ [a])) {g : HookHandle}
    (hlines : ∀ l ∈ L.lines, l.handle ≠ g) (hplaced : ∀ b ∈ placed, g ∉ b.handles)
    (m : MethodId) (hook : Hook ν) :
    (L.install g m hook a.priority a.moduleId).Owned may
      (placed ++ [{ a with handles := a.handles ++ [g] }]) where
  own := by
    intro b hb l hl hmem
    rcases List.mem_append.mp hb with hb | hb <;> rcases List.mem_append.mp hl with hl | hl
    · exact h.own b (List.mem_append_left _ hb) l hl hmem
    · rw [List.mem_singleton.mp hl] at hmem
      exact absurd hmem (hplaced b hb)
    · rw [List.mem_singleton.mp hb] at hmem ⊢
      rcases List.mem_append.mp hmem with hmem | hmem
      · exact h.own a List.mem_concat_self l hl hmem
      · exact absurd (List.mem_singleton.mp hmem) (hlines l hl)
    · rw [List.mem_singleton.mp hb, List.mem_singleton.mp hl]
      exact ⟨rfl, rfl⟩
  all := by
    have hlast : { a with handles := a.handles ++ [g] }
        ∈ placed ++ [{ a with handles := a.handles ++ [g] }] := List.mem_concat_self
    intro l hl
    rcases List.mem_append.mp hl with hl | hl
    · refine (h.all l hl).imp_right fun ⟨b, hb, hmem⟩ => ?_
      rcases List.mem_append.mp hb with hb | hb
      · exact ⟨b, List.mem_append_left _ hb, hmem⟩
      · rw [List.mem_singleton.mp hb] at hmem
        exact ⟨_, hlast, List.mem_append_left _ hmem⟩
    · rw [List.mem_singleton.mp hl]
      exact .inr ⟨_, hlast, List.mem_concat_self⟩

/-- The last module's lines are struck out. -/
theorem removeAll (h : L.Owned may (placed ++ [a])) :
    (L.removeAll a.handles).Owned may placed where
  own := fun b hb l hl => h.own b (List.mem_append_left _ hb) l (List.mem_filter.mp hl).1
  all := by
    intro l hl
    obtain ⟨hl, hnot⟩ := List.mem_filter.mp hl
    refine (h.all l hl).imp_right fun ⟨b, hb, hmem⟩ => ?_
    rcases List.mem_append.mp hb with hb | hb
    · exact ⟨b, hb, hmem⟩
    · rw [List.mem_singleton.mp hb] at hmem
      exact absurd hmem (of_decide_eq_true hnot)

end Ledger.Owned

namespace Host

variable {may : Permit} {p q : Host ν} {elsewhere : MethodId → Option (Body ν)}

/-! ## The layers of modules -/

/-- The layers with the handles of these modules are the modules' own, and
came in the order of the modules. There are no others, unless code may
install hooks by itself. -/
structure Places (may : Permit) (p : Host ν) (placed : List AppliedModule) : Prop where
  within : p.Within may
  kept : ∃ L elsewhere, p.Keeps L elsewhere ∧ L.Owned may.install placed
  drawn : ∀ a ∈ placed, ∀ h ∈ a.handles, h.raw < p.table.nextHandle
  rising : placed.Pairwise fun a b => ∀ g ∈ a.handles, ∀ h ∈ b.handles, g.raw < h.raw

namespace Places

variable {placed : List AppliedModule} {a : AppliedModule}

/-- A process that nobody has hooked yet. -/
theorem untouched (h : p.Untouched) (hwithin : p.Within may) : p.Places may [] where
  within := hwithin
  kept := ⟨_, _, h.keeps, fun _ ha => absurd ha List.not_mem_nil,
    fun _ hl => absurd hl List.not_mem_nil⟩
  drawn := fun _ ha => absurd ha List.not_mem_nil
  rising := .nil

/-- Layers stay where they are, as far as they stay at all. -/
theorem leads (h : p.Places may placed) (hpq : Leads may (Later may.install) p q) :
    q.Places may placed := by
  obtain ⟨hwithin, hlater⟩ := hpq h.within
  obtain ⟨L, elsewhere, k, howned⟩ := h.kept
  obtain ⟨M, elsewhere', kM, hM⟩ := hlater.lines L elsewhere k
  refine
    { within := hwithin
      kept := ⟨M, elsewhere', kM, fun a ha l hl hmem => ?_, fun l hl => ?_⟩
      drawn := fun a ha g hg => Nat.lt_of_lt_of_le (h.drawn a ha g hg) hlater.drawn
      rising := h.rising }
  · rcases hM l hl with hl | ⟨_, hnew⟩
    · exact howned.own a ha l hl hmem
    · exact absurd (h.drawn a ha l.handle hmem) (Nat.not_lt.mpr hnew)
  · rcases hM l hl with hl | ⟨hmay, _⟩
    · exact howned.all l hl
    · exact .inl hmay

/-- A module has its turn, and no layer yet. -/
theorem begin (h : p.Places may placed) (moduleId : String) (priority : Int32) :
    p.Places may (placed ++ [{ moduleId, priority, handles := [] }]) where
  within := h.within
  kept := by
    obtain ⟨L, elsewhere, k, howned⟩ := h.kept
    exact ⟨L, elsewhere, k, howned.begin moduleId priority⟩
  drawn := by
    intro a ha g hg
    rcases List.mem_append.mp ha with ha | ha
    · exact h.drawn a ha g hg
    · rw [List.mem_singleton.mp ha] at hg
      exact absurd hg List.not_mem_nil
  rising := by
    refine List.pairwise_append.mpr ⟨h.rising, List.pairwise_singleton _ _, ?_⟩
    intro a _ b hb g _ h hh
    rw [List.mem_singleton.mp hb] at hh
    exact absurd hh List.not_mem_nil

/-- **The module whose turn it is gets one more layer**, above all handles so far. -/
theorem install (h : p.Places may (placed ++ [a])) {m : MethodId} {hook : Hook ν}
    (hhook : hook.Within may) {g : HookHandle}
    (hq : p.install m hook a.priority a.moduleId = (.ok g, q)) :
    q.Places may (placed ++ [{ a with handles := a.handles ++ [g] }]) := by
  have hwithin := h.within.install m hhook a.priority a.moduleId
  rw [hq] at hwithin
  obtain ⟨L, elsewhere, k, howned⟩ := h.kept
  rcases k.install m hook a.priority a.moduleId with ⟨e, q', _, heq, _⟩ | ⟨q', heq, kq⟩
  · rw [hq] at heq
    cases heq
  rw [hq] at heq
  cases heq
  have hold : ∀ b ∈ placed, ∀ g ∈ b.handles, g.raw < p.table.nextHandle :=
    fun b hb => h.drawn b (List.mem_append_left _ hb)
  have hmine : ∀ g ∈ a.handles, g.raw < p.table.nextHandle :=
    h.drawn a List.mem_concat_self
  have hused : p.table.nextHandle < q.table.nextHandle :=
    kq.used _ List.mem_concat_self
  refine
    { within := hwithin
      kept := ⟨_, elsewhere, kq, howned.install (fun l hl heq => ?_) (fun b hb hmem => ?_) m hook⟩
      drawn := fun b hb g hg => ?_
      rising := ?_ }
  · have hraw := k.used l hl
    rw [heq] at hraw
    exact Nat.lt_irrefl _ hraw
  · exact Nat.lt_irrefl _ (hold b hb _ hmem)
  · rcases List.mem_append.mp hb with hb | hb
    · exact Nat.lt_trans (hold b hb g hg) hused
    · rw [List.mem_singleton.mp hb] at hg
      rcases List.mem_append.mp hg with hg | hg
      · exact Nat.lt_trans (hmine g hg) hused
      · rw [List.mem_singleton.mp hg]
        exact hused
  · obtain ⟨hrising, _, hover⟩ := List.pairwise_append.mp h.rising
    refine List.pairwise_append.mpr ⟨hrising, List.pairwise_singleton _ _, ?_⟩
    intro b hb c hc g hg g' hg'
    rw [List.mem_singleton.mp hc] at hg'
    rcases List.mem_append.mp hg' with hg' | hg'
    · exact hover b hb a (List.mem_singleton.mpr rfl) g hg g' hg'
    · rw [List.mem_singleton.mp hg']
      exact hold b hb g hg

/-- **A module that is dropped takes its layers with it.** -/
theorem drop (h : p.Places may (placed ++ [a])) :
    (p.removeAll a.handles).2.Places may placed where
  within := h.within.removeAll a.handles
  kept := by
    obtain ⟨L, elsewhere, k, howned⟩ := h.kept
    obtain ⟨elsewhere', kq, _⟩ := k.removeAll a.handles
    exact ⟨_, elsewhere', kq, howned.removeAll⟩
  drawn := by
    intro b hb g hg
    rw [nextHandle_removeAll]
    exact h.drawn b (List.mem_append_left _ hb) g hg
  rising := (List.pairwise_append.mp h.rising).1

/-- A module that stands before another in a chain is the same, or was applied before it. -/
theorem sublist_of_before {L : Ledger ν} (k : p.Keeps L elsewhere) (howned : L.Owned may.install placed)
    (h : p.Places may placed) (hfalling : placed.Pairwise fun a b => b.priority ≤ a.priority)
    {x y : Line ν} (hx : x ∈ L.lines) (hy : y ∈ L.lines) (hbefore : x.before y = true)
    {b : AppliedModule} (ha : a ∈ placed) (hb : b ∈ placed) (hxa : x.handle ∈ a.handles)
    (hyb : y.handle ∈ b.handles) : a = b ∨ [a, b].Sublist placed := by
  rcases sublist_of_mem ha hb with heq | hab | hba
  · exact .inl heq
  · exact .inr hab
  · -- `y` has the lower handle, and its module no lower priority
    exfalso
    have hhandle := List.pairwise_iff_forall_sublist.mp h.rising hba _ hyb _ hxa
    have hpriority := List.pairwise_iff_forall_sublist.mp hfalling hba
    rw [← (howned.own a ha x hx hxa).2, ← (howned.own b hb y hy hyb).2] at hpriority
    rcases Line.before_iff.mp hbefore with hlt | ⟨_, htime⟩
    · exact Int32.lt_irrefl (Int32.lt_of_lt_of_le hlt hpriority)
    · have hraw := (le_iff_of_rising k.timed.rising k.numbered x hx y hy).mp htime
      exact Nat.not_le_of_lt hhandle hraw

/-- **Along every chain the layers of modules stand in the order of the
modules**, if these came by falling priority. -/
theorem follows (h : p.Places may placed)
    (hfalling : placed.Pairwise fun a b => b.priority ≤ a.priority) (m : MethodId) :
    Follows (((p.layers m).filter (·.handle ∈ placed.flatMap (·.handles))).map (·.moduleId))
      (placed.map (·.moduleId)) := by
  obtain ⟨L, elsewhere, k, howned⟩ := h.kept
  have hids : ((p.layers m).filter (·.handle ∈ placed.flatMap (·.handles))).map (·.moduleId)
      = ((L.chain m).filter (·.handle ∈ placed.flatMap (·.handles))).map (·.moduleId) := by
    rw [k.layers, List.filter_map, List.map_map]
    rfl
  have hmem : ∀ l ∈ (L.chain m).filter (·.handle ∈ placed.flatMap (·.handles)),
      l ∈ L.lines ∧ ∃ a ∈ placed, l.handle ∈ a.handles := by
    intro l hl
    obtain ⟨hl, hhandle⟩ := List.mem_filter.mp hl
    exact ⟨(Ledger.mem_chain.mp hl).1, List.mem_flatMap.mp (of_decide_eq_true hhandle)⟩
  rw [hids]
  constructor
  · intro id hid
    obtain ⟨l, hl, rfl⟩ := List.mem_map.mp hid
    obtain ⟨hline, a, ha, hla⟩ := hmem l hl
    exact List.mem_map.mpr ⟨a, ha, (howned.own a ha l hline hla).1.symm⟩
  · have hsorted : (L.chain m).Pairwise fun x y => x.before y = true :=
      List.pairwise_mergeSort Line.before_trans Line.before_total _
    refine List.pairwise_map.mpr ((hsorted.filter _).imp_of_mem fun {x y} hx hy hbefore => ?_)
    obtain ⟨hx, a, ha, hxa⟩ := hmem x hx
    obtain ⟨hy, b, hb, hyb⟩ := hmem y hy
    rw [(howned.own a ha x hx hxa).1, (howned.own b hb y hy hyb).1]
    rcases sublist_of_before k howned h hfalling hx hy hbefore ha hb hxa hyb with rfl | hab
    · exact .inl rfl
    · exact .inr (hab.map AppliedModule.moduleId)

/-- Where code installs no hooks by itself, every layer is a module's. -/
theorem handle_mem (h : p.Places may placed) {m : MethodId} {l : Layer ν}
    (hl : l ∈ p.layers m) : may.install ∨ l.handle ∈ placed.flatMap (·.handles) := by
  obtain ⟨L, elsewhere, k, howned⟩ := h.kept
  rw [k.layers] at hl
  obtain ⟨x, hx, rfl⟩ := List.mem_map.mp hl
  exact (howned.all x (Ledger.mem_chain.mp hx).1).imp_right List.mem_flatMap.mpr

end Places

/-! ## Modules one after another -/

section Applying

variable {source : Source ν σ}

/-- **What modules leave behind is theirs, in the order they were applied**,
whatever the code does that is loaded and called. -/
theorem places_placing : Placing may fun placed (p : Host ν) => p.Places may placed where
  note := fun _ p n hp => hp.leads fun hwithin =>
    ⟨hwithin.same (fun _ => rfl) rfl rfl, later_carried.note p n⟩
  called := fun depth _ _ _ _ _ hcall hp =>
    hp.leads (callBaseWith_carries later_carried (enter_carries later_carried depth) hcall)
  refused := by
    intro _ p m h priority moduleId err q hh hq hp
    refine hp.leads fun hwithin => ⟨?_, ?_⟩
    · have hinstalled := hwithin.install m hh priority moduleId
      rwa [hq] at hinstalled
    · rcases p.install_cases m h priority moduleId with
        ⟨e, q', i, heq, hi⟩ | ⟨s, _, heq⟩ | ⟨_, q', x, _, _, heq⟩
      · rw [hq] at heq
        cases heq
        exact .idle hi
      · rw [hq] at heq
        cases heq
      · rw [hq] at heq
        cases heq
  begun := fun _ _ moduleId priority _ hp => hp.begin moduleId priority
  installed := fun _ _ _ _ _ _ _ hh hq hp => hp.install hh hq
  dropped := fun _ _ _ hp => hp.drop

/-- The modules that are applied are some of those that were to be. -/
theorem applyEach_taken (ms : List ModuleInfo) (session : ProcessSession) (r : ApplyReport)
    (s : σ) {report : ApplyReport} {session' : ProcessSession} {s' : σ}
    (h : applyEach source ms session r s p = some (((.report report, session'), s'), q)) :
    ∃ taken : List ModuleInfo, taken.Sublist ms ∧
      session'.applied.map (fun a => (a.moduleId, a.priority))
        = session.applied.map (fun a => (a.moduleId, a.priority))
          ++ taken.map fun m => (m.moduleId, m.priority) := by
  induction ms generalizing session r s p with
  | nil =>
    cases h
    exact ⟨[], .slnil, (List.append_nil _).symm⟩
  | cons m ms ih =>
    rcases applyEach_cons_cases h with ⟨-, hskip⟩ | ⟨hs, ds, s₁, q₁, -, ha⟩ |
      ⟨why, s₁, q₁, -, ha⟩ | ⟨message, s₁, q₁, -, heq⟩
    · obtain ⟨taken, hsub, htaken⟩ := ih session r s hskip
      exact ⟨taken, hsub.cons m, htaken⟩
    · obtain ⟨taken, hsub, htaken⟩ := ih _ _ _ ha
      refine ⟨m :: taken, hsub.cons_cons m, htaken.trans ?_⟩
      rw [ProcessSession.pushApplied, List.map_append, List.append_assoc]
      rfl
    · have hsame : (session.pushFailed m.moduleId).applied = session.applied := by
        rw [ProcessSession.pushFailed_eq]
      obtain ⟨taken, hsub, htaken⟩ := ih _ _ _ ha
      exact ⟨taken, hsub.cons m, hsame ▸ htaken⟩
    · cases heq

end Applying

/-! ## A new process -/

/-- A process that carries no modules has no layers. -/
theorem Untouched.layers (h : p.Untouched) (m : MethodId) : p.layers m = [] := by
  rw [Host.layers, Host.slot?, h.table]
  rfl

end Host

/-- The handles of the layers that the modules of a process installed. -/
def ForkOutcome.handles (o : ForkOutcome) : List HookHandle :=
  o.session.elim [] fun session => session.applied.flatMap (·.handles)

namespace Host

/-- **In a new process the modules stand along every chain in the order of
their application**; other layers are there only if code may install hooks
by itself. -/
theorem forkFrom_follows {link : Link σ} {source : Source ν σ} {startsMeanwhile heartbeat : Bool}
    {pid : UInt32} {app : AppDescriptor} {s s' : σ} {answer : ScopeAnswer} {o : ForkOutcome}
    (hp : p.Untouched) (hwithin : p.Within may) (hsource : source.Within may)
    (hanswer : (link.queryScope app s).1 = .ok answer)
    (h : forkFrom link source startsMeanwhile heartbeat pid app s p
      = some ((.outcome o, s'), q)) (m : MethodId) :
    Follows (((q.layers m).filter (·.handle ∈ o.handles)).map (·.moduleId))
        ((answer.meant app).map (·.moduleId)) ∧
      ∀ l ∈ q.layers m, may.install ∨ l.handle ∈ o.handles := by
  have hnone : ∀ ids : List String, p.layers m = [] →
      Follows (((p.layers m).filter (·.handle ∈ o.handles)).map (·.moduleId)) ids ∧
        ∀ l ∈ p.layers m, may.install ∨ l.handle ∈ o.handles := by
    intro ids hnil
    rw [hnil]
    exact ⟨⟨fun _ hx => absurd hx List.not_mem_nil, .nil⟩, fun _ hl => absurd hl List.not_mem_nil⟩
  have hexit := forkFrom_exit h
  generalize hend : ((ForkEnd.outcome o, s'), q) = a at hexit
  cases hexit with
  | entered _ =>
    cases hend
    exact hnone _ (hp.layers m)
  | unreachable _ _ =>
    cases hend
    exact hnone _ (hp.layers m)
  | noneOffered _ _ _ =>
    cases hend
    exact hnone _ (hp.layers m)
  | noneMeant _ _ _ =>
    cases hend
    exact hnone _ (hp.layers m)
  | late _ _ _ =>
    cases hend
    exact hnone _ (hp.layers m)
  | unwound _ _ _ => cases hend
  | @running answer' s₁ s₂ session report q hentered hasked happlied =>
    cases hend
    rw [hasked] at hanswer
    cases hanswer
    have hbegun : Host.Places may { p with appEntered := startsMeanwhile } [] :=
      (Places.untouched hp hwithin).leads fun hwithin =>
        ⟨hwithin.same (fun _ => rfl) rfl rfl, .same (i := 0) rfl rfl fun _ => rfl⟩
    have hplaces := applyEach_places places_placing hsource _ _ _ _ hbegun happlied
    obtain ⟨taken, hsub, htaken⟩ := applyEach_taken _ _ _ _ happlied
    have hhandles : (announce link heartbeat session report s₂).1.handles
        = session.applied.flatMap (·.handles) := by
      rw [announce_eq]
      rfl
    have htaken : session.applied.map (fun a => (a.moduleId, a.priority))
        = taken.map fun m => (m.moduleId, m.priority) := htaken
    have hids : session.applied.map (·.moduleId) = taken.map (·.moduleId) := by
      have hfst := congrArg (List.map Prod.fst) htaken
      rw [List.map_map, List.map_map] at hfst
      exact hfst
    have hfalling : (session.applied.map fun a => (a.moduleId, a.priority)).Pairwise
        fun x y => y.2 ≤ x.2 := by
      rw [htaken]
      refine List.pairwise_map.mpr ?_
      exact ((ModuleInfo.pairwise_inOrder _).sublist hsub).imp ModuleInfo.priority_le_of_before
    have hfollows := hplaces.follows (List.pairwise_map.mp hfalling) m
    rw [hids] at hfollows
    rw [hhandles]
    exact ⟨hfollows.mono (hsub.map _), fun l hl => hplaces.handle_mem hl⟩

/-- Two modules hook the same method. They are offered in the wrong order,
and their layers stand in the right one. -/
example :
    let link : Link Unit := {
      queryScope := fun _ s => (.ok { modules := [
        { moduleId := "low", enabled := true, scope := some .all,
          entryPoints := [{ codePath := "low.so" }] },
        { moduleId := "high", enabled := true, scope := some .all, priority := 7,
          entryPoints := [{ codePath := "high.so" }] }] }, s)
      register := fun _ s => (.error .timeout, s)
      report := fun _ _ _ s => (.ok (), s)
      heartbeat := fun _ _ s => (.ok true, s) }
    let hook : Hook Unit := { run := fun v => .proceed v.call.args fun r => .finish r }
    let source : Source Unit Unit := fun _ s =>
      (.ready (.hookMethod ⟨1⟩ hook fun _ => .finish .completed), s)
    let p : Host Unit :=
      Host.declare {} "App" "start" [] "void" {} .interpreted fun _ => .finish (.ok .void)
    (forkFrom link source false true 1 {} () p).map (fun a => (a.2.layers ⟨1⟩).map (·.moduleId))
      = some ["high", "low"] := by
  cbv

end Host

end Interpose
