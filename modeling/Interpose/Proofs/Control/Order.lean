/-
Interpose.Proofs.Control.Order — a backup does not know which module came first.

Of modules with one priority the registry puts those first that were
installed first. A backup does not hold the numbers that tell, and lists
modules by their ids. Restored where there are none, they are installed in
this order (`numbers_restored`), so that from then on numbers and ids rise
together (`Rebuilt`). Every process is offered the modules it was offered
before; but where priorities are equal, by their ids (`reordered_of_rebuilt`).

Main statement: `restores_by_id`. The order there was before is not always
this one (`installs_forgotten`).
-/
import Mathlib.Data.List.Permutation
import Interpose.Proofs.Control.Restore
import Interpose.Proofs.Fork.Agreement

namespace Interpose

open Registry (Document Fit Mutation)

/-! ## The order of the ids -/

/-- One module stands before another by its priority, or else by its id. -/
def ModuleInfo.AheadById (a b : ModuleInfo) : Prop :=
  b.priority < a.priority ∨ (a.priority = b.priority ∧ a.moduleId < b.moduleId)

instance (a b : ModuleInfo) : Decidable (a.AheadById b) := inferInstanceAs (Decidable (_ ∨ _))

/-- The same of two ids, where priorities are known. -/
def AheadById (priority : String → Int32) (a b : String) : Prop :=
  priority b < priority a ∨ (priority a = priority b ∧ a < b)

theorem aheadById_asymm {p : String → Int32} {a b : String} (h : AheadById p a b) :
    ¬ AheadById p b a := by
  rintro (hlt | ⟨heq, hlt⟩)
  · rcases h with hlt' | ⟨heq, _⟩
    · exact Int32.lt_irrefl (Int32.lt_trans hlt hlt')
    · exact Int32.lt_irrefl (heq ▸ hlt)
  · rcases h with hlt' | ⟨_, hlt'⟩
    · exact Int32.lt_irrefl (heq ▸ hlt')
    · exact String.lt_irrefl _ (String.lt_trans hlt hlt')

/-- What a process is offered `later` when modules that it was offered `before`
have been put back: the same ones, and where priorities are equal by their ids.
The order is the one before exactly if that was the order of the ids already. -/
structure Reordered (before later : List ModuleInfo) : Prop where
  same : (later.map (·.moduleId)).Perm (before.map (·.moduleId))
  byId : later.Pairwise ModuleInfo.AheadById
  kept_iff : later.map (·.moduleId) = before.map (·.moduleId) ↔ before.Pairwise ModuleInfo.AheadById

/-- Of two modules, the one that may not stand first stands second. -/
theorem Module.inOrder_pair {a b : Module} (h : a.before b = false) : inOrder [a, b] = [b, a] := by
  refine (List.perm_pair.mp (List.mergeSort_perm [a, b] _)).resolve_left fun heq => ?_
  have hsorted := pairwise_inOrder [a, b]
  rw [inOrder, heq] at hsorted
  have hfirst := List.rel_of_pairwise_cons hsorted List.mem_cons_self
  cases h.symm.trans hfirst

/-! ## Documents -/

namespace Registry

namespace Document

variable {d : Document} {app : AppDescriptor}

/-- What the priority of a module is; of none, zero. -/
def priorityOf (d : Document) (id : String) : Int32 := (d.get? id).elim 0 (·.priority)

/-- The order of what is offered is told from the ids. -/
theorem Sound.pairwise_offered (hd : d.Sound) :
    ((d.applicable app).map Module.toInfo).Pairwise ModuleInfo.AheadById ↔
      ((d.applicable app).map (·.id)).Pairwise (AheadById d.priorityOf) := by
  have hpriority : ∀ m ∈ d.applicable app, d.priorityOf m.id = m.priority := fun m hm => by
    obtain ⟨⟨k, hk⟩, _⟩ := mem_applicable.mp hm
    obtain rfl := hd.keyed k m hk
    rw [priorityOf, hk]
    rfl
  rw [List.pairwise_map, List.pairwise_map]
  refine List.Pairwise.iff_of_mem fun {a b} ha hb => ?_
  rw [AheadById, hpriority a ha, hpriority b hb]
  rfl

/-- Of two modules that are there, one was installed before the other. -/
def Earlier (d : Document) (a b : String) : Prop :=
  ∀ m n, d.get? a = some m → d.get? b = some n → m.installSeq < n.installSeq

/-- The modules were installed in the order of their ids. -/
def NumberedById (d : Document) : Prop := ∀ a b, a < b → d.Earlier a b

/-- Then the registry's order is that of the ids. -/
theorem NumberedById.pairwise_applicable (hn : d.NumberedById) (hd : d.Sound) :
    ((d.applicable app).map Module.toInfo).Pairwise ModuleInfo.AheadById := by
  have hids := List.pairwise_map.mp (hd.nodup_applicable app)
  have hsorted := Module.pairwise_inOrder (d.modules.values.filter (·.appliesTo app))
  refine List.pairwise_map.mpr ((hsorted.and hids).imp_of_mem fun {a b} ha hb ⟨hbefore, hne⟩ => ?_)
  obtain ⟨⟨i, hi⟩, _⟩ := mem_applicable.mp ha
  obtain ⟨⟨j, hj⟩, _⟩ := mem_applicable.mp hb
  obtain rfl := hd.keyed i a hi
  obtain rfl := hd.keyed j b hj
  rcases appliesBefore_iff.mp hbefore with hp | ⟨hp, hseq⟩
  · exact .inl hp
  refine .inr ⟨hp, Std.lt_of_le_of_ne (Std.not_lt.mp fun hlt => ?_) hne⟩
  -- were the ids the other way round, so would be the numbers
  have hback := hn _ _ hlt b a hj hi
  rcases hseq with hlt' | ⟨heq, _⟩
  · exact UInt64.lt_irrefl _ (UInt64.lt_trans hlt' hback)
  · exact UInt64.lt_irrefl _ (heq ▸ hback)

end Document

/-- A registry that was built anew from the modules of one that was `kept`. -/
structure Rebuilt (kept built : Document) : Prop where
  sound : built.Sound
  back : ∀ id m, kept.get? id = some m → ∃ m', built.get? id = some m' ∧
    m'.priority = m.priority ∧ m'.scope = m.scope ∧
    (m'.enabled = true ↔ m.enabled = true ∧ m.scope ≠ .apps [])
  only : ∀ id, kept.get? id = none → built.get? id = none
  numbers : built.NumberedById

namespace Rebuilt

variable {kept built : Document} (h : Rebuilt kept built)

include h

theorem priorityOf : built.priorityOf = kept.priorityOf := by
  funext id
  rw [Document.priorityOf, Document.priorityOf]
  cases hget : kept.get? id with
  | none => rw [h.only id hget]
  | some m =>
    obtain ⟨m', hget', hpriority, _⟩ := h.back id m hget
    rw [hget']
    exact hpriority

/-- A module without a scope is not enabled again, but it was not offered before either. -/
theorem appliesTo_iff {id : String} {app : AppDescriptor} :
    (∃ m, built.get? id = some m ∧ m.appliesTo app = true) ↔
      ∃ m, kept.get? id = some m ∧ m.appliesTo app = true := by
  cases hget : kept.get? id with
  | none => rw [h.only id hget]
  | some m =>
    obtain ⟨m', hget', _, hscope, henabled⟩ := h.back id m hget
    have hcovers : m.scope.covers app = true → m.scope ≠ .apps [] := fun hcovers hempty => by
      rw [hempty] at hcovers
      cases hcovers
    simp only [hget', Option.some.injEq, exists_eq_left', Module.appliesTo_iff, hscope, henabled]
    exact ⟨fun ⟨⟨hon, _⟩, hc⟩ => ⟨hon, hc⟩, fun ⟨hon, hc⟩ => ⟨⟨hon, hcovers hc⟩, hc⟩⟩

/-- **What was offered is offered again, by priorities and ids.** -/
theorem reordered (hkept : kept.Sound) (app : AppDescriptor) :
    Reordered ((kept.applicable app).map Module.toInfo)
      ((built.applicable app).map Module.toInfo) := by
  have hids : ∀ d : Document, ((d.applicable app).map Module.toInfo).map (·.moduleId)
      = (d.applicable app).map (·.id) := fun d => by rw [List.map_map]; rfl
  have hsame : ((built.applicable app).map (·.id)).Perm ((kept.applicable app).map (·.id)) :=
    (List.perm_ext_iff_of_nodup (h.sound.nodup_applicable app) (hkept.nodup_applicable app)).mpr
      fun id => by rw [h.sound.mem_offered, hkept.mem_offered, h.appliesTo_iff]
  have hbyId : ((built.applicable app).map Module.toInfo).Pairwise ModuleInfo.AheadById :=
    h.numbers.pairwise_applicable h.sound
  refine ⟨by rwa [hids, hids], hbyId, ?_⟩
  rw [h.sound.pairwise_offered, h.priorityOf] at hbyId
  rw [hids, hids, hkept.pairwise_offered]
  constructor
  · intro heq
    rwa [← heq]
  · intro hbefore
    exact hsame.eq_of_pairwise (fun _ _ _ _ hab hba => absurd hba (aheadById_asymm hab)) hbyId hbefore

end Rebuilt

end Registry

namespace Control

open Registry (Rebuilt)

/-! ## Restoring where there is nothing -/

variable {bs : List BackupModule} {d d' : Document}

/-- Modules that are new are numbered in the order in which they are restored. -/
theorem numbers_restored (hids : (bs.map (·.id)).Nodup) (hnew : ∀ b ∈ bs, d.get? b.id = none)
    (hroom : d.nextSeq.toNat + bs.length < UInt64.size)
    (h : d.after (bs.flatMap (·.changes)) = .ok d') :
    (∀ b ∈ bs, ∀ m, d'.get? b.id = some m → d.nextSeq < m.installSeq) ∧
      bs.Pairwise fun a b => d'.Earlier a.id b.id := by
  induction bs generalizing d with
  | nil => exact ⟨by simp, .nil⟩
  | cons b bs ih =>
    obtain ⟨hnot, hids⟩ := List.nodup_cons.mp hids
    obtain ⟨hb, hbs⟩ := List.forall_mem_cons.mp hnew
    rw [List.length_cons] at hroom
    rw [List.flatMap_cons] at h
    obtain ⟨d₁, hfirst, hrest⟩ := Document.after_append.mp h
    obtain ⟨_, hothers, hnumber⟩ := BackupModule.after_changes hfirst
    obtain ⟨hseq, m, hget, hm⟩ := hnumber hb
    have hnext : d₁.nextSeq.toNat = d.nextSeq.toNat + 1 := by
      rw [hseq, UInt64.toNat_add, UInt64.toNat_one, Nat.mod_eq_of_lt]
      change _ < UInt64.size
      omega
    have hrise : d.nextSeq < d₁.nextSeq := UInt64.lt_iff_toNat_lt.mpr (by omega)
    have hnew' : ∀ c ∈ bs, d₁.get? c.id = none := fun c hc => by
      have hne : c.id ≠ b.id := fun heq => hnot (List.mem_map.mpr ⟨c, hc, heq⟩)
      rw [hothers c.id hne]
      exact hbs c hc
    obtain ⟨habove, hpairs⟩ := ih hids hnew' (by omega) hrest
    -- the first keeps its number, and all others come after it
    have hkeeps : d'.get? b.id = some m := ((after_restored hids hrest).2 b.id hnot).trans hget
    refine ⟨List.forall_mem_cons.mpr ⟨fun n hn => ?_, fun c hc n hn => ?_⟩,
      List.pairwise_cons.mpr ⟨fun c hc k n hk hn => ?_, hpairs⟩⟩
    · cases hkeeps.symm.trans hn
      exact hm ▸ hrise
    · exact UInt64.lt_trans hrise (habove c hc n hn)
    · cases hkeeps.symm.trans hk
      exact hm ▸ habove c hc n hn

/-- So modules that are restored in the order of their ids are numbered in this order. -/
theorem earlier_restored (hrising : bs.Pairwise fun a b => a.id < b.id)
    (hnew : ∀ b ∈ bs, d.get? b.id = none) (hroom : d.nextSeq.toNat + bs.length < UInt64.size)
    (h : d.after (bs.flatMap (·.changes)) = .ok d') :
    ∀ a ∈ bs, ∀ b ∈ bs, a.id < b.id → d'.Earlier a.id b.id := by
  have hids : (bs.map (·.id)).Nodup := by
    refine List.pairwise_map.mpr (hrising.imp fun {a b} hlt heq => ?_)
    rw [heq] at hlt
    exact String.lt_irrefl _ hlt
  obtain ⟨_, hpairs⟩ := numbers_restored hids hnew hroom h
  intro a ha b hb
  refine List.Pairwise.forall_of_forall_of_flip
    (R := fun a b : BackupModule => a.id < b.id → d'.Earlier a.id b.id) ?_ ?_ ?_ ha hb
  · exact fun a _ hlt => absurd hlt (String.lt_irrefl _)
  · refine hpairs.imp ?_
    exact fun h _ => h
  · exact hrising.imp fun hlt hflip => absurd (String.lt_trans hlt hflip) (String.lt_irrefl _)

/-- **All modules of a registry, restored where there are none, build it anew.** -/
theorem rebuilt_of_after {kept : Document} (hkept : kept.Sound) (hempty : d.modules = {})
    (hroom : d.nextSeq.toNat + kept.modules.size < UInt64.size)
    (h : d.after ((Backup.ofModules (kept.modules.values.map Module.toInfo)).modules.flatMap
      (·.changes)) = .ok d') : Rebuilt kept d' := by
  generalize hbs : (Backup.ofModules (kept.modules.values.map Module.toInfo)).modules = bs at h
  have hmem : ∀ x, x ∈ bs ↔ ∃ m, kept.get? x.id = some m ∧ x = .ofInfo m.toInfo :=
    fun x => hbs ▸ mem_ofModules hkept
  have hids : bs.map (·.id) = kept.modules.values.map (·.id) := hbs ▸ ids_ofModules _
  have hrising : bs.Pairwise fun a b => a.id < b.id :=
    List.pairwise_map.mp (hids ▸ hkept.rising_ids)
  have hlength : bs.length = kept.modules.size := by
    rw [← List.length_map (·.id), hids, List.length_map, Keyed.values, List.length_map]
    rfl
  have hnone : ∀ id, d.get? id = none := fun id => by rw [Document.get?, hempty]; rfl
  have hthere : ∀ {id m}, kept.get? id = some m → BackupModule.ofInfo m.toInfo ∈ bs ∧ m.id = id :=
    fun {id m} hget => by
      obtain rfl := hkept.keyed id m hget
      exact ⟨(hmem _).mpr ⟨m, hget, rfl⟩, rfl⟩
  obtain ⟨hstands, hothers⟩ := after_restored (hids ▸ hkept.nodup_ids) h
  have honly : ∀ id, kept.get? id = none → d'.get? id = none := fun id hget => by
    refine (hothers id fun hin => ?_).trans (hnone id)
    obtain ⟨x, hx, rfl⟩ := List.mem_map.mp hin
    obtain ⟨m, hm, _⟩ := (hmem x).mp hx
    cases hget.symm.trans hm
  have hnever : ∀ {id m}, d.get? id ≠ some m := fun {id _} hget => by
    cases (hnone id).symm.trans hget
  have hsound : d.Sound := ⟨fun _ _ hget => absurd hget hnever, fun _ _ hget => absurd hget hnever⟩
  obtain ⟨_, hrow, _⟩ := Registry.Row.of_after h
  refine ⟨hrow.sound hsound, fun id m hget => ?_, honly, fun a b hlt m n hm hn => ?_⟩
  · obtain ⟨hin, rfl⟩ := hthere hget
    obtain ⟨m', hget', _, hrest⟩ := standsIn_ofInfo (hstands _ hin)
    exact ⟨m', hget', hrest⟩
  · have hfrom : ∀ {id k}, d'.get? id = some k → ∃ x ∈ bs, x.id = id := fun {id k} hget => by
      cases hold : kept.get? id with
      | none => cases (honly id hold).symm.trans hget
      | some old => exact ⟨_, hthere hold⟩
    obtain ⟨x, hx, rfl⟩ := hfrom hm
    obtain ⟨y, hy, rfl⟩ := hfrom hn
    have hroom' : d.nextSeq.toNat + bs.length < UInt64.size := hlength ▸ hroom
    exact earlier_restored hrising (fun b _ => hnone b.id) hroom' h x hx y hy hlt m n hm hn

/-- Both commands succeed, wherever a file can be put and a store be written. -/
theorem rebuilds (source target : Desk Daemon) (file : Option String)
    (hkept : source.behind.registry.current.Sound)
    (hway : source.files.walk (source.files.locate (file.getD (backupName source.clock.date)))
      = .ok ())
    (hplace : source.files.entry? (source.files.locate (file.getD (backupName source.clock.date)))
      ≠ some .dir)
    (hwrites : Daemon.Writes none target.behind)
    (hempty : target.behind.registry.current.modules = {})
    (hroom : target.behind.registry.current.nextSeq.toNat
      + source.behind.registry.current.modules.size < UInt64.size) :
    ∃ saved done, (writeBackup Daemon.manager file []).perform source = (.ok (), saved) ∧
      (restoreBackup Daemon.manager (file.getD (backupName source.clock.date)) []).perform
        { target with files := saved.files } = (.ok (), done) ∧
      Rebuilt source.behind.registry.current done.behind.registry.current := by
  obtain ⟨saved, s, hbackup, _, hread, hparse⟩ := writeBackup_ok [] rfl hway hplace
  let b := (Backup.ofModules source.behind.getRegistry.modules).select []
  have hfit : ∀ x ∈ b.modules, Fit (.ofInfo x.toInstall) := fun x hx => by
    obtain ⟨m, hm, heq⟩ := (mem_ofModules hkept).mp hx
    rw [heq]
    exact BackupModule.fit_ofInfo (hkept.fit _ m hm)
  obtain ⟨done, hrestore, hmade⟩ :=
    restoreBackup_made { target with files := saved.files } [] hread hparse hfit hwrites
  exact ⟨saved, done, hbackup, hrestore, rebuilt_of_after hkept hempty hroom hmade⟩

/-! ## The law -/

/-- **A registry that is restored where there is none offers every process the
modules it offered before, in the order of their priorities and ids.** It was
reached by changes, and is written to a file wherever one can be put; the
registry it is restored onto is empty, and its store can be written. -/
theorem restores_by_id (ms : List Mutation) (source target : Desk Daemon) (file : Option String)
    (hreached : ({} : Document).after ms = .ok source.behind.registry.current)
    (hway : source.files.walk (source.files.locate (file.getD (backupName source.clock.date)))
      = .ok ())
    (hplace : source.files.entry? (source.files.locate (file.getD (backupName source.clock.date)))
      ≠ some .dir)
    (hwrites : Daemon.Writes none target.behind)
    (hempty : target.behind.registry.current.modules = {})
    (hroom : target.behind.registry.current.nextSeq.toNat
      + source.behind.registry.current.modules.size < UInt64.size) :
    ∃ saved done, (writeBackup Daemon.manager file []).perform source = (.ok (), saved) ∧
      (restoreBackup Daemon.manager (file.getD (backupName source.clock.date)) []).perform
        { target with files := saved.files } = (.ok (), done) ∧
      ∀ app : AppDescriptor, app.appId ≠ "" → ∃ before later,
        source.behind.queryScope { app := some app } = .ok before ∧
        done.behind.queryScope { app := some app } = .ok later ∧
        Reordered before.modules later.modules := by
  obtain ⟨_, hrow, _⟩ := Registry.Row.of_after hreached
  have hkept := hrow.sound .empty
  obtain ⟨saved, done, hbackup, hrestore, hrebuilt⟩ :=
    rebuilds source target file hkept hway hplace hwrites hempty hroom
  refine ⟨saved, done, hbackup, hrestore, fun app happ => ?_⟩
  exact ⟨_, _, source.behind.queryScope_answers happ, done.behind.queryScope_answers happ,
    hrebuilt.reordered hkept app⟩

/-! ## Two registries -/

/-- Where there are no files, one can be put. -/
theorem unsaved_places (current : Document) :
    let desk : Desk Daemon := { behind := unsaved current }
    desk.files.walk (desk.files.locate "b.json") = .ok () ∧
      desk.files.entry? (desk.files.locate "b.json") ≠ some .dir := by
  intro desk
  have hlocate : Disk.locate {} "b.json" = ["b.json"] := by decide +kernel
  exact ⟨hlocate ▸ rfl, hlocate ▸ fun h => (nomatch h)⟩

theorem after_of_toOption {d' : Document} {ms : List Mutation}
    (h : (d.after ms).toOption = some d') : d.after ms = .ok d' := by
  cases hafter : d.after ms with
  | error why => simp [hafter, Except.toOption] at h
  | ok e => simpa [hafter, Except.toOption] using h

/-- Installed in the order of the ids, or under another priority: nothing changes places. -/
theorem restores_by_id_kept :
    let hooks (id : String) (priority : Int32) : Module := {
      id, priority
      enabled := true
      scope := .all
      entryPoints := [{ codePath := "hooks.so", symbol := "init" }] }
    let ms : List Mutation := [.install (hooks "b" 0), .install (hooks "a" 7), .install (hooks "c" 0)]
    let kept : Document := {
      version := 3
      nextSeq := 3
      modules := ((Keyed.empty.insert "b" { hooks "b" 0 with installSeq := 1 }).insert
        "a" { hooks "a" 7 with installSeq := 2 }).insert "c" { hooks "c" 0 with installSeq := 3 } }
    let source : Desk Daemon := { behind := unsaved kept }
    let target : Desk Daemon := { behind := unsaved { version := 8, nextSeq := 2 } }
    ({} : Document).after ms = .ok kept ∧
      source.files.walk (source.files.locate "b.json") = .ok () ∧
      source.files.entry? (source.files.locate "b.json") ≠ some .dir ∧
      Daemon.Writes none target.behind ∧ target.behind.registry.current.modules = {} ∧
      target.behind.registry.current.nextSeq.toNat + kept.modules.size < UInt64.size ∧
      ∃ saved done, (writeBackup Daemon.manager (some "b.json") []).perform source = (.ok (), saved) ∧
        (restoreBackup Daemon.manager "b.json" []).perform { target with files := saved.files }
          = (.ok (), done) ∧
        ∃ later, done.behind.queryScope { app := some { appId := "app" } } = .ok later ∧
          later.modules.map (·.moduleId) = ["a", "b", "c"] := by
  intro hooks ms kept source target
  have hreached : ({} : Document).after ms = .ok kept := after_of_toOption (by decide +kernel)
  obtain ⟨hway, hplace⟩ := unsaved_places kept
  have hwrites : Daemon.Writes none target.behind := unsaved_writes _
  have hroom : target.behind.registry.current.nextSeq.toNat + kept.modules.size < UInt64.size := by
    decide +kernel
  obtain ⟨saved, done, hbackup, hrestore, hoffers⟩ :=
    restores_by_id ms source target (some "b.json") hreached hway hplace hwrites rfl hroom
  refine ⟨hreached, hway, hplace, hwrites, rfl, hroom, saved, done, hbackup, hrestore, ?_⟩
  obtain ⟨before, later, hbefore, hlater, hreordered⟩ := hoffers { appId := "app" } (by decide)
  have happlicable : kept.applicable { appId := "app" } = kept.modules.values := by
    have hall : kept.modules.values.filter (·.appliesTo { appId := "app" }) = kept.modules.values := by
      decide +kernel
    rw [Document.applicable, hall]
    exact List.mergeSort_of_pairwise (by decide +kernel)
  have hmodules : before.modules = kept.modules.values.map Module.toInfo :=
    happlicable ▸ Daemon.modules_of_queryScope hbefore
  refine ⟨later, hlater, ?_⟩
  rw [hreordered.kept_iff.mpr (by rw [hmodules]; decide +kernel), hmodules]
  decide +kernel

/-- **What was installed first need not come first again.** Two modules of one
priority that were installed against the order of their ids change places. -/
theorem installs_forgotten :
    let hooks (id : String) : Module := {
      id
      enabled := true
      scope := .all
      entryPoints := [{ codePath := "hooks.so", symbol := "init" }] }
    let ms : List Mutation := [.install (hooks "b"), .install (hooks "a")]
    let kept : Document := {
      version := 2
      nextSeq := 2
      modules := (Keyed.empty.insert "b" { hooks "b" with installSeq := 1 }).insert
        "a" { hooks "a" with installSeq := 2 } }
    let source : Desk Daemon := { behind := unsaved kept }
    let target : Desk Daemon := { behind := unsaved {} }
    ({} : Document).after ms = .ok kept ∧
      ∃ saved done, (writeBackup Daemon.manager (some "b.json") []).perform source = (.ok (), saved) ∧
        (restoreBackup Daemon.manager "b.json" []).perform { target with files := saved.files }
          = (.ok (), done) ∧
        ∃ before later, source.behind.queryScope { app := some { appId := "app" } } = .ok before ∧
          done.behind.queryScope { app := some { appId := "app" } } = .ok later ∧
          before.modules.map (·.moduleId) = ["b", "a"] ∧
          later.modules.map (·.moduleId) = ["a", "b"] := by
  intro hooks ms kept source target
  have hreached : ({} : Document).after ms = .ok kept := after_of_toOption (by decide +kernel)
  obtain ⟨_, hrow, _⟩ := Registry.Row.of_after hreached
  have hkept := hrow.sound .empty
  obtain ⟨hway, hplace⟩ := unsaved_places kept
  obtain ⟨saved, done, hbackup, hrestore, hrebuilt⟩ := rebuilds source target (some "b.json") hkept
    hway hplace (unsaved_writes _) rfl (by decide +kernel)
  have happlicable : kept.applicable { appId := "app" }
      = [{ hooks "b" with installSeq := 1 }, { hooks "a" with installSeq := 2 }] := by
    have hall : kept.modules.values.filter (·.appliesTo { appId := "app" })
        = [{ hooks "a" with installSeq := 2 }, { hooks "b" with installSeq := 1 }] := by decide +kernel
    rw [Document.applicable, hall]
    exact Module.inOrder_pair (by decide +kernel)
  have hreordered : Reordered ((kept.applicable { appId := "app" }).map Module.toInfo) _ :=
    hrebuilt.reordered hkept { appId := "app" }
  rw [happlicable] at hreordered
  refine ⟨hreached, saved, done, hbackup, hrestore, _, _, Daemon.queryScope_answers _ (by decide),
    Daemon.queryScope_answers _ (by decide), ?_, ?_⟩
  · show ((kept.applicable _).map Module.toInfo).map (·.moduleId) = _
    rw [happlicable]
    rfl
  · -- the same two, and not as they were
    have hnot := mt hreordered.kept_iff.mp (by decide +kernel)
    exact (List.perm_pair.mp hreordered.same).resolve_left hnot

end Control

end Interpose
