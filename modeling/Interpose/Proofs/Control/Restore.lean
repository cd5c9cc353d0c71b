/-
Interpose.Proofs.Control.Restore — a backup brings every module back.

One module is put back in three changes: the code, then the scope, then
whether it is enabled. What the first of them does depends on whether there
is such a module, for one that is there keeps its scope and stays enabled;
the other two make up for it, so that in the end the registry has the
module as the backup has it either way (`BackupModule.after_changes`).
Modules of different ids do not get into each other's way
(`after_restored`). That the command makes these changes and no others is
said apart from what they do (`restoreBackup_made`).

Main statement: `restores_backup`.
-/
import Interpose.Proofs.Control.Act
import Interpose.Proofs.Control.Backup
import Interpose.Proofs.Registry.Scope

namespace Interpose.Control

open Registry (Document Fit Mutation)

/-! ## One module -/

namespace BackupModule

/-- The changes that put a module back. -/
def changes (b : BackupModule) : List Mutation :=
  [.install (.ofInfo b.toInstall), .setScope b.id .replace (.ofWire b.wireScope),
    if b.enable && !b.scopeIsEmpty then .enable b.id else .disable b.id]

/-- The registry has a module as the backup has it; without a scope it is not enabled. -/
def StandsIn (b : BackupModule) (d : Document) : Prop :=
  ∃ m, d.get? b.id = some m ∧ m.entryPoints = b.entryPoints ∧ m.priority = b.priority ∧
    m.scope = .ofWire b.wireScope ∧ m.enabled = (b.enable && !b.scopeIsEmpty)

variable {b : BackupModule} {d d' : Document}

/-- An install leaves a module with its code and priority; one that is new gets the next number. -/
theorem get?_install {n : Module} (h : d.next (.install n) = .ok d') :
    ∃ m, d'.get? n.id = some m ∧ m.entryPoints = n.entryPoints ∧ m.priority = n.priority ∧
      (d.get? n.id = none → d'.nextSeq = d.nextSeq + 1 ∧ m.installSeq = d'.nextSeq) := by
  cases hget : d.get? n.id with
  | none =>
    obtain ⟨_, hn, _, hseq, hnew⟩ := Document.get?_next_of_none h hget
    cases hn
    exact ⟨_, hnew, rfl, rfl, fun _ => ⟨hseq, rfl⟩⟩
  | some old =>
    exact ⟨_, (Document.get?_next_of_some h hget).1, rfl, rfl, fun hnone => nomatch hnone⟩

/-- A change of a module that is there is made. -/
theorem exists_next {m : Mutation} {old : Module} (hnot : ∀ n, m ≠ .install n)
    (hold : d.get? m.moduleId = some old) : ∃ d', d.next m = .ok d' :=
  Document.next_isOk.mpr ⟨fun n hn => absurd hn (hnot n), fun _ => by simp [hold]⟩

/-- A module that is fit to be installed can be put back into any registry. -/
theorem exists_after_changes (hfit : Fit (.ofInfo b.toInstall)) (d : Document) :
    ∃ d', d.after b.changes = .ok d' := by
  obtain ⟨d₁, h₁⟩ := (Document.next_isOk (d := d) (m := .install (.ofInfo b.toInstall))).mpr
    ⟨fun _ hn => Mutation.install.inj hn ▸ hfit, fun hnot => absurd rfl (hnot _)⟩
  obtain ⟨m₁, hget₁, _⟩ := get?_install h₁
  obtain ⟨d₂, h₂⟩ := exists_next (m := .setScope b.id .replace (.ofWire b.wireScope)) (by simp) hget₁
  have hget₂ := (Document.get?_next_of_some h₂ hget₁).1
  obtain ⟨d₃, h₃⟩ : ∃ d₃, d₂.next (if b.enable && !b.scopeIsEmpty then .enable b.id
      else .disable b.id) = .ok d₃ := by
    split
    next => exact exists_next (m := .enable b.id) (by simp) hget₂
    next => exact exists_next (m := .disable b.id) (by simp) hget₂
  exact ⟨d₃, Document.after_cons.mpr ⟨d₁, h₁, Document.after_cons.mpr ⟨d₂, h₂,
    Document.after_cons.mpr ⟨d₃, h₃, rfl⟩⟩⟩⟩

/-- **The changes of a module make it what it is in the backup**, whether or not
there is one of its id, and leave all others alone. One that is new gets the
next install number. -/
theorem after_changes (h : d.after b.changes = .ok d') :
    b.StandsIn d' ∧ (∀ id, id ≠ b.id → d'.get? id = d.get? id) ∧
      (d.get? b.id = none → d'.nextSeq = d.nextSeq + 1 ∧
        ∃ m, d'.get? b.id = some m ∧ m.installSeq = d'.nextSeq) := by
  obtain ⟨d₁, h₁, h⟩ := Document.after_cons.mp h
  obtain ⟨d₂, h₂, h⟩ := Document.after_cons.mp h
  obtain ⟨d₃, h₃, h⟩ := Document.after_cons.mp h
  cases h
  obtain ⟨m, hget₁, hcode, hpriority, hnew⟩ := get?_install h₁
  obtain ⟨hget₂, hseq₂⟩ := Document.get?_next_of_some h₂ hget₁
  -- whether it is enabled is a change of this module either way
  have hid := moduleId_switch b.id (b.enable && !b.scopeIsEmpty)
  obtain ⟨hget₃, hseq₃⟩ := Document.get?_next_of_some h₃ (hid ▸ hget₂)
  rw [hid, edit_switch] at hget₃
  refine ⟨⟨_, hget₃, hcode, hpriority, rfl, rfl⟩, fun id hne => ?_, fun hnone => ?_⟩
  · rw [Document.get?_next_of_ne h₃ (by rwa [hid]), Document.get?_next_of_ne h₂ hne,
      Document.get?_next_of_ne h₁ hne]
  · obtain ⟨hseq₁, hnumber⟩ := hnew hnone
    rw [hseq₃, hseq₂]
    exact ⟨hseq₁, _, hget₃, hnumber⟩

end BackupModule

variable {b : BackupModule} {bs : List BackupModule} (desk : Desk Daemon)

theorem id_ne_empty (hfit : Fit (.ofInfo b.toInstall)) : b.id ≠ "" := by
  intro hempty
  have hblank : Text.allBlank b.id.toList = false := hfit.id_not_blank
  rw [hempty] at hblank
  cases hblank

/-- Restoring a module is making its three changes, whether or not it was there. -/
theorem restoreModule_made (installed : Bool) (hfit : Fit (.ofInfo b.toInstall))
    (hwrites : Daemon.Writes none desk.behind) :
    ∃ d, (restoreModule Daemon.manager installed b).perform desk
        = (.ok true, { desk with behind := d }) ∧
      Daemon.Writes none d ∧ desk.behind.registry.current.after b.changes = .ok d.registry.current := by
  have hid := id_ne_empty hfit
  have hentries : b.entryPoints.isEmpty = false := by
    have hsome : b.entryPoints ≠ [] := hfit.some_entry_point
    simpa using hsome
  obtain ⟨next, hmade⟩ := BackupModule.exists_after_changes hfit desk.behind.registry.current
  obtain ⟨next₁, hcode, hafter⟩ := Document.after_cons.mp hmade
  obtain ⟨next₂, hscope, hafter⟩ := Document.after_cons.mp hafter
  obtain ⟨next₃, hswitch, hafter⟩ := Document.after_cons.mp hafter
  cases hafter
  obtain ⟨d₁, hcall₁, rfl, hwrites₁⟩ :=
    change_ok desk (mutationOf_install b.toInstall) hcode hwrites
  obtain ⟨d₂, hcall₂, rfl, hwrites₂⟩ :=
    change_ok { desk with behind := d₁ } ((mutationOf_setScope b.id .replace b.wireScope).trans
      (neededId_map_eq_ok.mpr ⟨hid, rfl⟩)) hscope hwrites₁
  obtain ⟨d₃, hcall₃, rfl, hwrites₃⟩ :=
    change_ok { desk with behind := d₂ } ((mutationOf_switch b.id _).trans
      (neededId_map_eq_ok.mpr ⟨hid, rfl⟩)) hswitch hwrites₂
  refine ⟨d₃, ?_, hwrites₃, hmade⟩
  rw [restoreModule]
  simp only [hentries, Bool.false_and, Bool.false_eq_true, if_false, Bool.not_false, if_true]
  rw [Act.perform_bind_ok (Act.perform_discard_ok hcall₁),
    Act.perform_bind_ok (Act.perform_discard_ok hcall₂),
    Act.perform_bind_ok (Act.perform_discard_ok hcall₃)]
  rfl

/-! ## One after the other -/

/-- Restoring modules is making the changes of each, one module after the other. -/
theorem restoreEach_made (known : List ModuleInfo) (hfit : ∀ b ∈ bs, Fit (.ofInfo b.toInstall))
    (hwrites : Daemon.Writes none desk.behind) :
    ∃ done d, (bs.mapM fun x => restoreModule Daemon.manager (find? known x.id).isSome x).perform desk
        = (.ok done, { desk with behind := d }) ∧
      desk.behind.registry.current.after (bs.flatMap (·.changes)) = .ok d.registry.current := by
  induction bs generalizing desk with
  | nil => exact ⟨[], desk.behind, rfl, rfl⟩
  | cons b bs ih =>
    obtain ⟨hb, hbs⟩ := List.forall_mem_cons.mp hfit
    obtain ⟨d, hfirst, hwrites', hmade⟩ :=
      restoreModule_made desk (find? known b.id).isSome hb hwrites
    obtain ⟨done, d', hrest, hmade'⟩ := ih { desk with behind := d } hbs hwrites'
    refine ⟨true :: done, d', ?_, ?_⟩
    · rw [List.mapM_cons, Act.perform_bind_ok hfirst, Act.perform_bind_ok hrest]
      rfl
    · rw [List.flatMap_cons]
      exact Document.after_append.mpr ⟨_, hmade, hmade'⟩

/-- **Modules of different ids are all put back**, and no others are touched. -/
theorem after_restored {d d' : Document} (hids : (bs.map (·.id)).Nodup)
    (h : d.after (bs.flatMap (·.changes)) = .ok d') :
    (∀ b ∈ bs, b.StandsIn d') ∧ ∀ id, id ∉ bs.map (·.id) → d'.get? id = d.get? id := by
  induction bs generalizing d with
  | nil =>
    cases h
    exact ⟨by simp, fun _ _ => rfl⟩
  | cons b bs ih =>
    obtain ⟨hnot, hids⟩ := List.nodup_cons.mp hids
    rw [List.flatMap_cons] at h
    obtain ⟨d₁, hfirst, hrest⟩ := Document.after_append.mp h
    obtain ⟨hstands, hothers, _⟩ := BackupModule.after_changes hfirst
    obtain ⟨hstands', hothers'⟩ := ih hids hrest
    refine ⟨List.forall_mem_cons.mpr ⟨?_, hstands'⟩, fun id hid => ?_⟩
    · rw [BackupModule.StandsIn, hothers' b.id hnot]
      exact hstands
    · obtain ⟨hne, hid⟩ := List.ne_and_not_mem_of_not_mem_cons hid
      rw [hothers' id hid, hothers id hne]

/-! ## The two commands -/

/-- No names choose every module. -/
def Chosen (ids : List String) (id : String) : Prop := ids = [] ∨ id ∈ ids

theorem mem_select {b : Backup} {ids : List String} {m : BackupModule} :
    m ∈ (b.select ids).modules ↔ m ∈ b.modules ∧ Chosen ids m.id := by
  rw [Backup.select]
  split
  next h => simp [Chosen, List.isEmpty_iff.mp h]
  next h => simp [Chosen, show ids ≠ [] by simpa using h]

theorem nodup_select {b : Backup} (ids : List String) (h : (b.modules.map (·.id)).Nodup) :
    ((b.select ids).modules.map (·.id)).Nodup := by
  rw [Backup.select]
  split
  next => exact h
  next => exact h.sublist (List.filter_sublist.map _)

theorem version_select (b : Backup) (ids : List String) : (b.select ids).version = b.version := by
  rw [Backup.select]
  split <;> rfl

/-- A backup of a sound registry has its modules under their ids. -/
theorem mem_ofModules {d : Document} (hd : d.Sound) {x : BackupModule} :
    x ∈ (Backup.ofModules (d.modules.values.map Module.toInfo)).modules ↔
      ∃ m, d.get? x.id = some m ∧ x = .ofInfo m.toInfo := by
  simp only [Backup.ofModules, List.map_map, List.mem_map, Function.comp_apply]
  constructor
  · rintro ⟨m, hm, rfl⟩
    obtain ⟨id, hid⟩ := Keyed.mem_values.mp hm
    refine ⟨m, ?_, rfl⟩
    show d.get? m.id = some m
    rw [hd.keyed id m hid]
    exact hid
  · rintro ⟨m, hm, hx⟩
    exact ⟨m, Keyed.mem_values.mpr ⟨x.id, hm⟩, hx.symm⟩

/-- A backup is written wherever a file can be put, and is there to be read. -/
theorem writeBackup_ok {source : Desk Daemon} {file : Option String} (ids : List String)
    {name : String} (hname : file.getD (backupName source.clock.date) = name)
    (hway : source.files.walk (source.files.locate name) = .ok ())
    (hplace : source.files.entry? (source.files.locate name) ≠ some .dir) :
    ∃ saved s, (writeBackup Daemon.manager file ids).perform source = (.ok (), saved) ∧
      saved.behind = source.behind ∧
      saved.files.readText (saved.files.locate name) = .ok s ∧
      Backup.parse s.toUTF8.toList
        = .ok ((Backup.ofModules source.behind.getRegistry.modules).select ids) := by
  subst hname
  let b := (Backup.ofModules source.behind.getRegistry.modules).select ids
  let name := file.getD (backupName source.clock.date)
  obtain ⟨files, hwrite⟩ :
      ∃ files, source.files.write (source.files.locate name) b.render = .ok files :=
    Disk.write_isOk.mpr ⟨hway, hplace⟩
  obtain ⟨s, hread, hbytes⟩ := Backup.readText_write hwrite
  obtain ⟨_, _, rfl⟩ := Disk.write_eq_ok hwrite
  have hrun : (writeBackup Daemon.manager file ids).perform source = (.ok (), { source with
      files := source.files.put (source.files.locate name) (.file b.render)
      lines := source.lines ++ [toString b.modules.length ++ " modules written to " ++ name] }) := by
    rw [writeBackup, Act.perform_bind_ok (listing_ok source), Act.perform_bind_ok Act.perform_get,
      Act.perform_bind_ok (Act.perform_writeFile hwrite)]
    rfl
  refine ⟨_, s, hrun, rfl, hread, ?_⟩
  rw [hbytes]
  exact Backup.parse_render (version_select _ ids)

/-- A backup that is read is restored, as far as its modules are fit: the changes
of the modules that are chosen are made. -/
theorem restoreBackup_made {name s : String} {backup : Backup} (ids : List String)
    (hread : desk.files.readText (desk.files.locate name) = .ok s)
    (hparse : Backup.parse s.toUTF8.toList = .ok backup)
    (hfit : ∀ b ∈ backup.modules, Fit (.ofInfo b.toInstall))
    (hwrites : Daemon.Writes none desk.behind) :
    ∃ done, (restoreBackup Daemon.manager name ids).perform desk = (.ok (), done) ∧
      desk.behind.registry.current.after ((backup.select ids).modules.flatMap (·.changes))
        = .ok done.behind.registry.current := by
  have hbackup : (readBackup name ids).perform desk = (.ok (backup.select ids), desk) := by
    rw [readBackup, Act.perform_bind_ok (Act.perform_readFile hread), hparse]
    rfl
  obtain ⟨restored, d, heach, hmade⟩ :=
    restoreEach_made desk desk.behind.getRegistry.modules
      (fun b hb => hfit b (mem_select.mp hb).1) hwrites
  have hrun : (restoreBackup Daemon.manager name ids).perform desk = (.ok (), { desk with
      behind := d
      lines := desk.lines
        ++ [toString (restored.countP id) ++ " modules restored from " ++ name] }) := by
    rw [restoreBackup, Act.perform_bind_ok hbackup, Act.perform_bind_ok (listing_ok desk),
      Act.perform_bind_ok heach]
    rfl
  exact ⟨_, hrun, hmade⟩

/-- So the modules that are chosen are all put back, and no others are touched. -/
theorem restoreBackup_ok {name s : String} {backup : Backup} (ids : List String)
    (hread : desk.files.readText (desk.files.locate name) = .ok s)
    (hparse : Backup.parse s.toUTF8.toList = .ok backup)
    (hfit : ∀ b ∈ backup.modules, Fit (.ofInfo b.toInstall))
    (hids : (backup.modules.map (·.id)).Nodup) (hwrites : Daemon.Writes none desk.behind) :
    ∃ done, (restoreBackup Daemon.manager name ids).perform desk = (.ok (), done) ∧
      (∀ b ∈ (backup.select ids).modules, b.StandsIn done.behind.registry.current) ∧
      ∀ id, id ∉ (backup.select ids).modules.map (·.id) →
        done.behind.registry.current.get? id = desk.behind.registry.current.get? id := by
  obtain ⟨done, hrun, hmade⟩ := restoreBackup_made desk ids hread hparse hfit hwrites
  exact ⟨done, hrun, after_restored (nodup_select ids hids) hmade⟩

/-! ## The law -/

/-- What a registry is `after` modules of another one, `kept` in a backup, were
restored onto it: every module that was chosen is there as it was, though
without a scope it is not enabled, and nothing else has changed. -/
structure Restored (chosen : String → Prop) (kept before after : Document) : Prop where
  back : ∀ id m, kept.get? id = some m → chosen id → ∃ m', after.get? id = some m' ∧
    m'.entryPoints = m.entryPoints ∧ m'.priority = m.priority ∧ m'.scope = m.scope ∧
    (m'.enabled = true ↔ m.enabled = true ∧ m.scope ≠ .apps [])
  others : ∀ id, ¬ ((kept.get? id).isSome ∧ chosen id) → after.get? id = before.get? id

/-- The module of a backup that stands in a registry is the one that was kept. -/
theorem standsIn_ofInfo {m : Module} {d : Document}
    (h : (BackupModule.ofInfo m.toInfo).StandsIn d) : ∃ m', d.get? m.id = some m' ∧
      m'.entryPoints = m.entryPoints ∧ m'.priority = m.priority ∧ m'.scope = m.scope ∧
      (m'.enabled = true ↔ m.enabled = true ∧ m.scope ≠ .apps []) := by
  obtain ⟨m', hget, hcode, hpriority, hscope, henabled⟩ := h
  refine ⟨m', hget, hcode, hpriority, ?_, ?_⟩
  · rw [hscope, BackupModule.wireScope_ofInfo, ModuleScope.ofWire_toWire]
  · rw [henabled, BackupModule.scopeIsEmpty, BackupModule.wireScope_ofInfo, Bool.and_eq_true,
      Bool.not_eq_true', ← Bool.not_eq_true, ModuleScope.isEmpty_toWire]
    rfl

/-- **A backup brings every module back.** Of a registry that changes have led
to, any selection is written to a file, wherever one can be put, and from
there it is restored, or a selection of it, onto any other registry whose
store can be written. Both commands succeed. -/
theorem restores_backup (ms : List Mutation) (source target : Desk Daemon) (file : Option String)
    (ids ids' : List String)
    (hreached : ({} : Document).after ms = .ok source.behind.registry.current)
    (hway : source.files.walk (source.files.locate (file.getD (backupName source.clock.date)))
      = .ok ())
    (hplace : source.files.entry? (source.files.locate (file.getD (backupName source.clock.date)))
      ≠ some .dir)
    (hwrites : Daemon.Writes none target.behind) :
    ∃ saved done, (writeBackup Daemon.manager file ids).perform source = (.ok (), saved) ∧
      saved.behind = source.behind ∧
      (restoreBackup Daemon.manager (file.getD (backupName source.clock.date)) ids').perform
        { target with files := saved.files } = (.ok (), done) ∧
      Restored (fun id => Chosen ids id ∧ Chosen ids' id) source.behind.registry.current
        target.behind.registry.current done.behind.registry.current := by
  obtain ⟨es, hrow, _⟩ := Registry.Row.of_after hreached
  have hsound := hrow.sound .empty
  obtain ⟨saved, s, hbackup, hbehind, hread, hparse⟩ := writeBackup_ok ids rfl hway hplace
  let b := (Backup.ofModules source.behind.getRegistry.modules).select ids
  have hmem : ∀ x, x ∈ b.modules ↔
      (∃ m, source.behind.registry.current.get? x.id = some m ∧ x = .ofInfo m.toInfo) ∧
        Chosen ids x.id := fun x => mem_select.trans (and_congr_left' (mem_ofModules hsound))
  have hfit : ∀ x ∈ b.modules, Fit (.ofInfo x.toInstall) := fun x hx => by
    obtain ⟨⟨m, hm, heq⟩, _⟩ := (hmem x).mp hx
    rw [heq]
    exact BackupModule.fit_ofInfo (hsound.fit _ m hm)
  have hids : (b.modules.map (·.id)).Nodup := by
    refine nodup_select ids ?_
    show ((Backup.ofModules (List.map Module.toInfo _)).modules.map (·.id)).Nodup
    rw [ids_ofModules]
    exact hsound.nodup_ids
  obtain ⟨done, hrestore, hstands, hothers⟩ :=
    restoreBackup_ok { target with files := saved.files } ids' hread hparse hfit hids hwrites
  refine ⟨saved, done, hbackup, hbehind, hrestore, fun id m hget ⟨hchosen, hchosen'⟩ => ?_,
    fun id hnot => hothers id fun hin => ?_⟩
  · obtain rfl := hsound.keyed id m hget
    have hin : BackupModule.ofInfo m.toInfo ∈ b.modules := (hmem _).mpr ⟨⟨m, hget, rfl⟩, hchosen⟩
    exact standsIn_ofInfo (hstands _ (mem_select.mpr ⟨hin, hchosen'⟩))
  · obtain ⟨x, hx, rfl⟩ := List.mem_map.mp hin
    obtain ⟨hx, hchosen'⟩ := mem_select.mp hx
    obtain ⟨⟨m, hm, _⟩, hchosen⟩ := (hmem x).mp hx
    exact hnot ⟨by simp [hm], hchosen, hchosen'⟩

/-- A module that is there already, without a scope and under another priority,
becomes what it is in the backup. The other one in the backup is not asked for. -/
theorem restores_backup_again :
    let hooks : Module := {
      id := "hooks"
      enabled := false
      scope := .all
      entryPoints := [{ codePath := "hooks.so", symbol := "init" }]
      priority := -3 }
    let ms : List Mutation := [.install hooks, .enable "hooks", .install { hooks with id := "é\n" }]
    let daemon (current : Document) : Daemon := {
      Daemon.boot default { tokens := { name := toString } } with
      store := Registry.Store.withKey ["registry.json"] "key"
      registry := { current } }
    let kept : Document := {
      version := 3
      nextSeq := 2
      modules := (Keyed.empty.insert "hooks" { hooks with enabled := true, installSeq := 1 }).insert
        "é\n" { hooks with id := "é\n", installSeq := 2 } }
    let before : Document := {
      version := 1
      nextSeq := 1
      modules := Keyed.empty.insert "hooks" {
        hooks with scope := .apps [], priority := 9, installSeq := 1 } }
    let source : Desk Daemon := { behind := daemon kept }
    let target : Desk Daemon := { behind := daemon before }
    ({} : Document).after ms = .ok kept ∧
      source.files.walk (source.files.locate "b.json") = .ok () ∧
      source.files.entry? (source.files.locate "b.json") ≠ some .dir ∧
      Daemon.Writes none target.behind ∧
      ∃ saved done, (writeBackup Daemon.manager (some "b.json") []).perform source = (.ok (), saved) ∧
        (restoreBackup Daemon.manager "b.json" ["hooks"]).perform { target with files := saved.files }
          = (.ok (), done) ∧
        (∃ m, done.behind.registry.current.get? "hooks" = some m ∧ m.priority = -3 ∧ m.scope = .all ∧
          m.enabled = true) ∧
        done.behind.registry.current.get? "é\n" = none := by
  intro hooks ms daemon kept before source target
  have hreached : ({} : Document).after ms = .ok kept := by
    have hsome : (({} : Document).after ms).toOption = some kept := by decide +kernel
    cases hafter : ({} : Document).after ms with
    | error why => simp [hafter, Except.toOption] at hsome
    | ok d => simpa [hafter, Except.toOption] using hsome
  have hlocate : source.files.locate "b.json" = ["b.json"] := by decide +kernel
  have hway : source.files.walk (source.files.locate "b.json") = .ok () := by
    rw [hlocate]
    rfl
  have hplace : source.files.entry? (source.files.locate "b.json") ≠ some .dir := by
    rw [hlocate]
    exact fun h => (nomatch h)
  have hwrites : Daemon.Writes none target.behind := by
    refine ⟨rfl, fun q hq bytes hfile => ?_, fun h => (nomatch h)⟩
    cases List.mem_singleton.mp hq
    cases hfile
  obtain ⟨saved, done, hbackup, _, hrestore, hrestored⟩ :=
    restores_backup ms source target (some "b.json") [] ["hooks"] hreached hway hplace hwrites
  have hkept : kept.get? "hooks" = some { hooks with enabled := true, installSeq := 1 } := by
    decide +kernel
  obtain ⟨m, hget, _, hpriority, hscope, henabled⟩ :=
    hrestored.back "hooks" _ hkept ⟨.inl rfl, .inr List.mem_cons_self⟩
  have hother := hrestored.others "é\n" fun h => by simp [Chosen] at h
  exact ⟨hreached, hway, hplace, hwrites, saved, done, hbackup, hrestore,
    ⟨m, hget, hpriority, hscope, henabled.mpr ⟨rfl, by simp [hooks]⟩⟩, hother⟩

end Interpose.Control
