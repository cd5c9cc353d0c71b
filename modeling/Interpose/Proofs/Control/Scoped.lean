/-
Interpose.Proofs.Control.Scoped — no command leaves a module enabled without a scope.

A command that changes a scope, or enables a module, does so in several
calls, and between them a module may well be enabled without a scope. But
then the call that comes next is one that cannot be refused, and makes up
for it; wherever a command can stop, no such module is left. As every
change concerns one module, the others need not be looked at
(`Document.ScopedBut`).

Main statements: `scoped_errands`, and `scoped_errands_reached` for the
registries that there can be.
-/
import Interpose.Proofs.Control.Pieces
import Interpose.Proofs.Control.Backup

namespace Interpose

open Registry (Document Happening Mutation Store World)

/-! ## Modules with a scope -/

/-- A module that has a scope if it is enabled. -/
def Module.Scoped (m : Module) : Prop := m.enabled = true → m.scope ≠ .apps []

namespace Registry.Document

variable {d d' : Document} {m : Mutation} {x : String}

/-- Modules stand under their own ids; those that are enabled have a scope. -/
structure Scoped (d : Document) : Prop where
  keyed : ∀ id m, d.get? id = some m → m.id = id
  modules : ∀ id m, d.get? id = some m → m.Scoped

/-- The same, but nothing is said of the scope of one module. -/
structure ScopedBut (x : String) (d : Document) : Prop where
  keyed : ∀ id m, d.get? id = some m → m.id = id
  modules : ∀ id m, id ≠ x → d.get? id = some m → m.Scoped

theorem Scoped.but (hd : d.Scoped) (x : String) : d.ScopedBut x :=
  ⟨hd.keyed, fun id m _ => hd.modules id m⟩

theorem ScopedBut.all (hd : d.ScopedBut x) (hx : ∀ m, d.get? x = some m → m.Scoped) : d.Scoped := by
  refine ⟨hd.keyed, fun id m hget => ?_⟩
  by_cases hid : id = x
  · subst hid
    exact hx m hget
  · exact hd.modules id m hid hget

/-- A change concerns its own module only. -/
theorem ScopedBut.next (hd : d.ScopedBut m.moduleId) (h : d.next m = .ok d') :
    d'.ScopedBut m.moduleId := by
  refine ⟨keyed_next hd.keyed h, fun id n hid hget => ?_⟩
  rw [get?_next_of_ne h hid] at hget
  exact hd.modules id n hid hget

/-- What a change has made of its module. -/
theorem get?_next_self (h : d.next m = .ok d') {new : Module} (hnew : d'.get? m.moduleId = some new) :
    (∃ old, d.get? m.moduleId = some old ∧ m.edit old = some new) ∨
      ∃ n, m = .install n ∧ new = { n with installSeq := d'.nextSeq } := by
  cases hget : d.get? m.moduleId with
  | some old =>
    rw [(get?_next_of_some h hget).1] at hnew
    exact .inl ⟨old, rfl, hnew⟩
  | none =>
    obtain ⟨n, rfl, _, _, hget'⟩ := get?_next_of_none h hget
    exact .inr ⟨n, rfl, (Option.some.inj (hget'.symm.trans hnew)).symm⟩

/-- **A change keeps scopes where its own module has one afterwards.** -/
theorem Scoped.next (hd : d.Scoped) (h : d.next m = .ok d')
    (hnew : ∀ n, m = .install n → n.Scoped)
    (hedit : ∀ old new, d.get? m.moduleId = some old → old.Scoped → m.edit old = some new →
      new.Scoped) : d'.Scoped := by
  refine ((hd.but _).next h).all fun new hget => ?_
  rcases get?_next_self h hget with ⟨old, hold, hmade⟩ | ⟨n, hm, rfl⟩
  · exact hedit old new hold (hd.modules _ old hold) hmade
  · exact hnew n hm

/-- An install keeps what is there as it is, but for code and priority. -/
theorem Scoped.install {n : Module} (hd : d.Scoped) (hn : n.Scoped)
    (h : d.next (.install n) = .ok d') : d'.Scoped := by
  refine hd.next h (fun _ heq => Mutation.install.inj heq ▸ hn) fun old new _ hold hmade => ?_
  cases hmade
  exact hold

theorem Scoped.uninstall {id : String} (hd : d.Scoped) (h : d.next (.uninstall id) = .ok d') :
    d'.Scoped :=
  hd.next h (fun _ heq => nomatch heq) fun _ _ _ _ hmade => nomatch hmade

theorem Scoped.setPriority {id : String} {p : Int32} (hd : d.Scoped)
    (h : d.next (.setPriority id p) = .ok d') : d'.Scoped := by
  refine hd.next h (fun _ heq => nomatch heq) fun old new _ hold hmade => ?_
  cases hmade
  exact hold

/-- A module may be disabled at any time, and enabled if it has a scope. -/
theorem ScopedBut.switch {id : String} {on : Bool} (hd : d.ScopedBut id)
    (hscope : on = true → ∀ old, d.get? id = some old → old.scope ≠ .apps [])
    (h : d.next (if on then .enable id else .disable id) = .ok d') : d'.Scoped := by
  have hid := Control.moduleId_switch id on
  have hbut := ScopedBut.next (by rwa [hid]) h
  rw [hid] at hbut
  refine hbut.all fun new hget => ?_
  rcases get?_next_self h (by rwa [hid]) with ⟨old, hold, hmade⟩ | ⟨n, hm, _⟩
  · rw [hid] at hold
    rw [Control.edit_switch] at hmade
    cases hmade
    exact fun hon => hscope hon old hold
  · cases on <;> exact nomatch hm

end Registry.Document

namespace Control

open Act

/-! ## Pieces that keep scopes -/

/-- A piece of a command that leaves no module enabled without a scope, whether it
goes well or fails. -/
def Keeps {α : Type} (x : Act Daemon α) : Prop :=
  Leads Document.Scoped Document.Scoped x fun _ => Document.Scoped

theorem keeps_change {op : MutationOp} (h : ∀ (d : Document) m d', d.Scoped → Daemon.mutationOf op = .ok m →
    d.next m = .ok d' → d'.Scoped) : Keeps (change Daemon.manager op) :=
  leads_change (fun d m d' hd hm hnext => h d m d' hd hm hnext) fun _ hd => .inl hd

theorem Act.Looks.keeps {α : Type} {x : Act Daemon α} (h : x.Looks) : Keeps x :=
  h.leads fun _ => id

/-- An install that goes well leaves what was to be installed. -/
theorem keeps_install {info : ModuleInfo} (h : (Module.ofInfo info).Scoped) :
    Keeps (change Daemon.manager (.install info)) := by
  refine keeps_change fun d m d' hd hm hnext => ?_
  cases hm
  exact hd.install h hnext

/-- A module that was named and is there can be disabled, whatever its scope, and enabled
if it has one. -/
theorem leads_switch (id : String) (on : Bool) {P : Document → Prop}
    (hbut : ∀ d, P d → d.ScopedBut id)
    (hscope : on = true → ∀ d, P d → ∀ m, d.get? id = some m → m.scope ≠ .apps [])
    (hcan : ∀ d, P d → d.Scoped ∨ (id ≠ "" ∧ ∃ m, d.get? id = some m)) :
    Leads Document.Scoped P (change Daemon.manager
      (if on then .enable { moduleId := id } else .disable { moduleId := id }))
      fun _ => Document.Scoped := by
  refine leads_change (fun d m d' hP hm hnext => ?_) fun d hP => ?_
  · rw [mutationOf_switch] at hm
    obtain ⟨_, rfl⟩ := neededId_map_eq_ok.mp hm
    exact (hbut d hP).switch (fun hon => hscope hon d hP) hnext
  · refine (hcan d hP).imp_right fun ⟨hid, old, hold⟩ => ?_
    rw [mutationOf_switch, neededId_map_eq_ok.mpr ⟨hid, rfl⟩]
    obtain ⟨d', hnext⟩ : ∃ d', d.next (if on then .enable id else .disable id) = .ok d' := by
      refine Document.next_isOk.mpr ⟨fun n hn => ?_, fun _ => ?_⟩
      · cases on <;> exact nomatch hn
      · rw [moduleId_switch, hold]
        simp
    exact ⟨_, d', rfl, hnext⟩

/-- What is known of a module after its scope was edited, if nothing more is. -/
structure Edited (id : String) (a : MutationAnswer) (d : Document) : Prop where
  named : id ≠ ""
  there : ∃ m, d.get? id = some m
  but : d.ScopedBut id
  answer : a.touched = (d.get? id).map Module.toInfo

theorem leads_setScope (id : String) (mode : ScopeMode) (s : WireScope) :
    Leads Document.Scoped Document.Scoped
      (change Daemon.manager (.setScope { moduleId := id, mode := mode.code, scope := some s }))
      fun a d => Edited id a d ∧
        (mode = .replace → ∀ m, d.get? id = some m → m.scope = .ofWire s) := by
  refine leads_change (fun d m d' hd hm hnext => ?_) fun _ hd => .inl hd
  rw [mutationOf_setScope] at hm
  obtain ⟨hid, rfl⟩ := neededId_map_eq_ok.mp hm
  obtain ⟨old, hold⟩ : ∃ old, d.get? id = some old :=
    Option.ne_none_iff_exists'.mp ((Document.next_isOk.mp ⟨d', hnext⟩).2 (by simp))
  have hget := (Document.get?_next_of_some hnext hold).1
  refine ⟨⟨hid, ⟨_, hget⟩, Document.ScopedBut.next (hd.but _) hnext, rfl⟩, ?_⟩
  rintro rfl new hnew
  cases hget.symm.trans hnew
  rfl

/-! ## Empty scopes -/

theorem ofWire_eq_empty {s : WireScope} : ModuleScope.ofWire s = .apps [] ↔ s.isEmpty = true := by
  rw [ModuleScope.ofWire, WireScope.isEmpty]
  cases s.allApps <;> simp

theorem hasNoScope_toInfo {m : Module} : hasNoScope m.toInfo = true ↔ m.scope = .apps [] :=
  ModuleScope.isEmpty_toWire

/-- A scope is empty if there are no targets. -/
theorem isEmpty_scopeOf (targets : List Target) :
    (Target.scopeOf targets).isEmpty = targets.isEmpty := by
  rw [Target.scopeOf]
  split
  next hall =>
    cases targets with
    | nil => simp at hall
    | cons t ts => rfl
  next hnot =>
    cases targets with
    | nil => rfl
    | cons t ts =>
      cases t with
      | all => simp at hnot
      | app t => rfl

/-- After an edit that did not leave the module enabled and without a scope. -/
theorem Edited.scoped {id : String} {a : MutationAnswer} {d : Document} (h : Edited id a d)
    (hnot : ¬ (a.touched.any fun i => i.enabled && hasNoScope i) = true) : d.Scoped := by
  refine h.but.all fun m hget hon hempty => hnot ?_
  rw [h.answer, hget, Option.map_some, Option.any_some, hasNoScope_toInfo.mpr hempty, Bool.and_true]
  exact hon

/-! ## Enabling what has a scope -/

/-- The modules of a listing that had a scope have one now. -/
def Recalls (known : List ModuleInfo) (d : Document) : Prop :=
  ∀ info ∈ known, hasNoScope info = false → ∀ m, d.get? info.moduleId = some m → m.scope ≠ .apps []

theorem recalls_listing {d : Document} (hd : d.Scoped) :
    Recalls (d.modules.values.map Module.toInfo) d := by
  intro info hinfo hscope m hget hempty
  obtain ⟨n, hn, rfl⟩ := List.mem_map.mp hinfo
  obtain ⟨id, hid⟩ := Keyed.mem_values.mp hn
  obtain rfl := hd.keyed id n hid
  cases hget.symm.trans hid
  exact Bool.eq_false_iff.mp hscope (hasNoScope_toInfo.mpr hempty)

/-- Enabling and disabling leave all scopes as they are. -/
theorem leads_switch_recalls {known : List ModuleInfo} {id : String} {on : Bool} :
    Leads (fun _ => True) (Recalls known) (change Daemon.manager
      (if on then .enable { moduleId := id } else .disable { moduleId := id }))
      fun _ => Recalls known := by
  refine leads_change (fun d m d' hd hm hnext info hinfo hscope new hget => ?_) fun _ _ => .inl trivial
  rw [mutationOf_switch] at hm
  obtain ⟨_, rfl⟩ := neededId_map_eq_ok.mp hm
  by_cases hid : info.moduleId = id
  · rw [← hid] at hnext
    rcases Document.get?_next_self hnext (by rwa [moduleId_switch]) with ⟨old, hold, hmade⟩ | ⟨n, hn, _⟩
    · rw [moduleId_switch] at hold
      rw [edit_switch] at hmade
      cases hmade
      exact hd info hinfo hscope old hold
    · cases on <;> exact nomatch hn
  · rw [Document.get?_next_of_ne hnext (by rwa [moduleId_switch])] at hget
    exact hd info hinfo hscope new hget

theorem leads_setModule {known : List ModuleInfo} {info : ModuleInfo} (enable : Bool)
    (hinfo : info ∈ known) :
    Leads Document.Scoped (fun d => d.Scoped ∧ Recalls known d) (setModule Daemon.manager enable info)
      fun _ d => d.Scoped ∧ Recalls known d := by
  rw [setModule]
  dsimp only
  split
  next => exact leads_throw_bind fun _ hd => hd.1
  next hguard =>
    have hscope : enable = true → hasNoScope info = false := fun hon => by simpa [hon] using hguard
    refine Leads.bind (Leads.blaming (Leads.and (leads_switch info.moduleId enable ?_ ?_ ?_)
      (leads_switch_recalls.weaken (fun d (hd : d.Scoped ∧ Recalls known d) => hd.2) fun _ _ => id)))
      fun _ => (looks_print _).leads fun _ hd => hd.1
    · exact fun d hd => hd.1.but _
    · exact fun hon d hd => hd.2 info hinfo (hscope hon)
    · exact fun d hd => .inl hd.1

theorem keeps_setModules (enable : Bool) (ids : List String) :
    Keeps (setModules Daemon.manager enable ids) := by
  refine leads_listing fun known => ?_
  refine Leads.weaken (P := fun d => d.Scoped ∧ Recalls known d)
    (leads_forM fun info hinfo => leads_setModule enable ?_) ?_ fun _ _ h => h.1
  · obtain ⟨id, _, hfind⟩ := List.mem_filterMap.mp hinfo
    exact List.mem_of_find?_eq_some hfind
  · rintro d ⟨hd, rfl⟩
    exact ⟨hd, recalls_listing hd⟩

/-! ## Installing -/

theorem keeps_installModule (id : String) (entries : List EntryPoint) (priority : Int32)
    (targets : List Target) (enable : Bool) :
    Keeps (installModule Daemon.manager id entries priority targets enable) := by
  rw [installModule]
  dsimp only
  split
  next => exact leads_throw_bind fun _ hd => hd
  next hguard =>
  have hscope : enable = true → targets.isEmpty = false := fun hon => by
    simpa [hon, isEmpty_scopeOf] using hguard
  refine leads_listing fun known => Leads.weaken ?_ (fun d h => h.1) fun _ _ hd => hd
  generalize (find? known id).isSome = existed
  have hprint : ∀ line, Keeps (print line) := fun line => (looks_print line).keeps
  refine (keeps_install (fun hon => ?_)).bind fun installed => ?_
  · show ModuleScope.ofWire _ ≠ _
    rw [Ne, ofWire_eq_empty, isEmpty_scopeOf, hscope hon]
    simp
  split
  next hedit =>
    obtain ⟨hexisted, htargets⟩ := Bool.and_eq_true_iff.mp hedit
    have hempty : ModuleScope.ofWire (Target.scopeOf targets) ≠ .apps [] := by
      rw [Ne, ofWire_eq_empty, isEmpty_scopeOf]
      simpa using htargets
    refine Leads.bind (Q := fun _ d => d.Scoped ∧ ∀ m, d.get? id = some m → m.scope ≠ .apps [])
      ((leads_setScope id .replace _).weaken (fun _ hd => hd) ?_) fun placed => ?_
    · rintro a d ⟨hedited, hplaced⟩
      have hscoped : ∀ m, d.get? id = some m → m.scope ≠ .apps [] :=
        fun m hget => hplaced rfl m hget ▸ hempty
      exact ⟨hedited.but.all fun m hget _ => hscoped m hget, hscoped⟩
    · split
      next =>
        exact (leads_switch id true (fun d hd => hd.1.but id) (fun _ d hd => hd.2)
          fun d hd => .inl hd.1).bind fun last => hprint _
      next => exact (hprint _).weaken (fun _ h => h.1) fun _ _ hd => hd
  next hedit =>
    split
    next henable => simp_all
    next => exact hprint _

theorem keeps_uninstallModule (id : String) : Keeps (uninstallModule Daemon.manager id) := by
  refine (keeps_change fun d m d' hd hm hnext => ?_).bind fun _ => (looks_print _).keeps
  obtain ⟨_, rfl⟩ := neededId_map_eq_ok.mp hm
  exact hd.uninstall hnext

theorem keeps_setPriority (id : String) (priority : Int32) :
    Keeps (setPriority Daemon.manager id priority) := by
  refine (keeps_change fun d m d' hd hm hnext => ?_).bind fun _ => (looks_print _).keeps
  obtain ⟨_, rfl⟩ := neededId_map_eq_ok.mp hm
  exact hd.setPriority hnext

/-! ## Editing scopes -/

theorem keeps_setScope (mode : ScopeMode) (id : String) (targets : List Target) :
    Keeps (setScope Daemon.manager mode id targets) := by
  rw [setScope]
  dsimp only
  refine (leads_setScope id mode _).blaming.bind fun edited => ?_
  have hprint : ∀ line, Keeps (print line) := fun line => (looks_print line).keeps
  split
  next =>
    -- the module is there, and disabling it cannot be refused
    refine Leads.bind (Leads.blaming (leads_switch id false (fun d hd => hd.1.but) ?_ ?_))
      fun _ => hprint _
    · exact fun hon => nomatch hon
    · exact fun d hd => .inr ⟨hd.1.named, hd.1.there⟩
  next hnot => exact (hprint _).weaken (fun d hd => hd.1.scoped hnot) fun _ _ hd => hd

/-! ## Restoring -/

theorem keeps_restoreModule (installed : Bool) (b : BackupModule) :
    Keeps (restoreModule Daemon.manager installed b) := by
  rw [restoreModule]
  split
  next => exact (looks_pure _).keeps
  next =>
    have hrest : Keeps (do
        discard (change Daemon.manager (.setScope {
          moduleId := b.id, mode := ScopeMode.replace.code, scope := some b.wireScope }))
        discard (change Daemon.manager (if b.enable && !b.scopeIsEmpty then
          .enable { moduleId := b.id } else .disable { moduleId := b.id }))
        return true) := by
      refine Leads.bind (Leads.discard (R := fun _ d => d.ScopedBut b.id ∧ b.id ≠ "" ∧
        ∃ m, d.get? b.id = some m ∧ m.scope = .ofWire b.wireScope)
        ((leads_setScope b.id .replace _).weaken (fun _ => id) ?_)) fun _ => ?_
      · rintro a d ⟨hedited, hplaced⟩
        obtain ⟨m, hget⟩ := hedited.there
        exact ⟨hedited.but, hedited.named, m, hget, hplaced rfl m hget⟩
      refine Leads.bind (Leads.discard (R := fun _ => Document.Scoped)
        (leads_switch b.id _ (fun d hd => hd.1) ?_ ?_)) fun _ => (looks_pure _).keeps
      · rintro hon d ⟨_, _, m, hget, hscope⟩ n hn
        cases hget.symm.trans hn
        rw [hscope, Ne, ofWire_eq_empty]
        simpa [BackupModule.scopeIsEmpty] using (Bool.and_eq_true_iff.mp hon).2
      · rintro d ⟨_, hid, m, hget, _⟩
        exact .inr ⟨hid, m, hget⟩
    dsimp only
    split
    next =>
      refine Leads.bind (Leads.discard (R := fun _ => Document.Scoped) (keeps_install ?_)) fun _ => hrest
      exact fun hon => nomatch hon
    next => exact hrest

theorem looks_readBackup (file : String) (ids : List String) : Looks (readBackup file ids) := by
  refine (looks_readFile file).bind fun s => ?_
  split
  next => exact looks_pure _
  next => exact looks_throw _

theorem keeps_restoreBackup (file : String) (ids : List String) :
    Keeps (restoreBackup Daemon.manager file ids) := by
  rw [restoreBackup]
  refine (looks_readBackup file ids).keeps.bind fun b => leads_listing fun known => ?_
  have heach : Keeps (b.modules.mapM fun x =>
      restoreModule Daemon.manager (find? known x.id).isSome x) :=
    leads_mapM fun x _ => keeps_restoreModule _ x
  exact (heach.weaken (fun _ h => h.1) fun _ _ hd => hd).bind fun _ => (looks_print _).keeps

/-! ## Commands that only look -/

theorem looks_showStatus (endpoint : String) : Looks (showStatus Daemon.manager endpoint) :=
  (looks_call fun _ => rfl).bind fun _ => looks_forM looks_print

theorem looks_showSessions : Looks (showSessions Daemon.manager) :=
  (looks_call fun _ => rfl).bind fun _ => (looks_print _).bind fun _ => looks_forM looks_print

theorem looks_listing : Looks (listing Daemon.manager) := ⟨fun _ => rfl⟩

theorem looks_listModules (enabled disabled : Bool) :
    Looks (listModules Daemon.manager enabled disabled) :=
  looks_listing.bind fun _ => looks_forM looks_print

theorem looks_listScope (id : String) : Looks (listScope Daemon.manager id) := by
  refine looks_listing.bind fun known => ?_
  split
  next => exact looks_throw _
  next => exact looks_forM looks_print

theorem looks_showLog (follow : Bool) (limit : UInt32) :
    Looks (showLog Daemon.manager follow limit) := by
  have hshow : ∀ follower : Follower, Looks (do
      follower.lines.forM print
      return follower) := fun follower => (looks_forM looks_print).bind fun _ => looks_pure _
  rw [showLog]
  dsimp only
  split
  next => exact (looks_call fun _ => rfl).bind fun _ => (looks_call fun _ => rfl).bind fun _ => hshow _
  next => exact (looks_call fun _ => rfl).bind fun _ => hshow _

theorem looks_writeBackup (file : Option String) (ids : List String) :
    Looks (writeBackup Daemon.manager file ids) :=
  looks_listing.bind fun _ => looks_get.bind fun _ => (looks_writeFile _ _).bind fun _ => looks_print _

/-- **Every command keeps scopes**, whether it goes well or stops half way. -/
theorem keeps_run (endpoint : String) (c : Command) : Keeps (c.run Daemon.manager endpoint) := by
  cases c with
  | status => exact (looks_showStatus endpoint).keeps
  | sessions => exact looks_showSessions.keeps
  | modulesList enabled disabled => exact (looks_listModules enabled disabled).keeps
  | modulesSet enable _ _ ids => exact keeps_setModules enable ids
  | modulesInstall id entries priority targets enable =>
    exact keeps_installModule id entries priority targets enable
  | modulesUninstall id => exact keeps_uninstallModule id
  | modulesPriority id priority => exact keeps_setPriority id priority
  | scopeList id => exact (looks_listScope id).keeps
  | scopeSet _ append remove id targets => exact keeps_setScope (scopeMode append remove) id targets
  | log follow limit => exact ((looks_showLog follow limit).bind fun _ => looks_pure _).keeps
  | backup file ids => exact (looks_writeBackup file ids).keeps
  | restore file ids => exact keeps_restoreBackup file ids

/-! ## One command after the other -/

/-- A command that is given to the daemon: at which endpoint, with which files at
hand, and when. -/
structure Errand where
  command : Command
  endpoint : String := ""
  files : Disk := {}
  clock : ClockReading := {}

/-- What a command comes to, and the daemon afterwards. -/
def Errand.run (e : Errand) (d : Daemon) : Except Failure Unit × Daemon :=
  let (result, desk) := (e.command.run Daemon.manager e.endpoint).perform {
    behind := d
    files := e.files
    clock := e.clock }
  (result, desk.behind)

/-- The daemon after some commands, whatever each of them came to. -/
def runErrands (d : Daemon) (es : List Errand) : Daemon := es.foldl (fun d e => (e.run d).2) d

variable {d : Daemon}

theorem Errand.scoped (e : Errand) (hwrites : Daemon.Writes none d)
    (hd : d.registry.current.Scoped) :
    Daemon.Writes none (e.run d).2 ∧ (e.run d).2.registry.current.Scoped := by
  have hrun := (keeps_run e.endpoint e.command).ends
    { behind := d, files := e.files, clock := e.clock } ⟨hwrites, hd⟩
  rcases hperform : (e.command.run Daemon.manager e.endpoint).perform
    { behind := d, files := e.files, clock := e.clock } with ⟨_ | _, desk⟩ <;>
    rw [hperform] at hrun <;> rw [Errand.run, hperform] <;> exact hrun

theorem runErrands_scoped (es : List Errand) (hwrites : Daemon.Writes none d)
    (hd : d.registry.current.Scoped) :
    Daemon.Writes none (runErrands d es) ∧ (runErrands d es).registry.current.Scoped := by
  induction es generalizing d with
  | nil => exact ⟨hwrites, hd⟩
  | cons e es ih =>
    obtain ⟨hwrites', hd'⟩ := e.scoped hwrites hd
    exact ih hwrites' hd'

/-- **No command ever leaves a module enabled without a scope.** Whatever
commands are given to a daemon whose store can be written, one after the
other and with any files at hand, and whatever each of them comes to: if no
module was enabled without a scope before, none is afterwards. Modules stand
under their own ids, as changes leave them. -/
theorem scoped_errands (es : List Errand) (d : Daemon) (hwrites : Daemon.Writes none d)
    (hd : d.registry.current.Scoped) : (runErrands d es).registry.current.Scoped :=
  (runErrands_scoped es hwrites hd).2

/-- Its last target is taken from a module that is enabled; then it is asked to be enabled again. -/
theorem scoped_errands_emptied :
    let hooks : Module := {
      id := "hooks"
      enabled := true
      scope := .apps [{ appId := "app" }]
      entryPoints := [{ codePath := "hooks.so", symbol := "init" }]
      installSeq := 1 }
    let d := unsaved { version := 1, nextSeq := 1, modules := Keyed.empty.insert "hooks" hooks }
    let es : List Errand := [
      { command := .scopeSet false false true "hooks" [.app { appId := "app" }] },
      { command := .modulesSet true true false ["hooks"] }]
    Daemon.Writes none d ∧ d.registry.current.Scoped ∧ (runErrands d es).registry.current.Scoped ∧
      (runErrands d es).registry.current.get? "hooks"
        = some { hooks with enabled := false, scope := .apps [] } := by
  intro hooks d es
  have hwrites : Daemon.Writes none d := unsaved_writes _
  have hget : ∀ id m, d.registry.current.get? id = some m → id = "hooks" ∧ m = hooks := by
    intro id m hm
    have hm : (Keyed.empty.insert "hooks" hooks).get? id = some m := hm
    rw [Keyed.get?_insert] at hm
    split at hm
    next hid => exact ⟨hid, (Option.some.inj hm).symm⟩
    next => exact nomatch hm
  have hd : d.registry.current.Scoped := by
    refine ⟨fun id m hm => ?_, fun id m hm _ hempty => ?_⟩ <;> obtain ⟨rfl, rfl⟩ := hget id m hm
    · rfl
    · exact nomatch hempty
  refine ⟨hwrites, hd, scoped_errands es d hwrites hd, ?_⟩
  decide +kernel

/-- **So it is with every registry that there can be**: in one that began with
nothing at its place modules stand under their own ids, whatever was asked of
it, and only that they have scopes need be said of it. -/
theorem scoped_errands_reached (s : Store) (disk : Disk) (hs : List Happening)
    (hmissing : disk.entry? s.path = none) (es : List Errand)
    (hd : d.registry.current = ((World.opened s disk).run s hs).live.current)
    (hwrites : Daemon.Writes none d)
    (hscoped : ∀ id m, d.registry.current.get? id = some m → m.Scoped) (id : String) (m : Module)
    (hget : (runErrands d es).registry.current.get? id = some m) : m.Scoped := by
  have hkeyed := ((World.row_run hmissing hs).sound .empty).keyed
  rw [← hd] at hkeyed
  exact (runErrands_scoped es hwrites ⟨hkeyed, hscoped⟩).2.modules id m hget

end Control

end Interpose
