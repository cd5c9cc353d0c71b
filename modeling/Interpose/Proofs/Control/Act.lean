/-
Interpose.Proofs.Control.Act — the pieces of a command.

A command is run piece by piece, each on the desk that the one before it
left. What talks to the daemon is looked at here: a change that the registry
can make, and whose document can be saved, is made, and the next one can be
saved too (`change_ok`); one that it cannot make changes nothing
(`change_refused`).
-/
import Interpose.Control.Run
import Interpose.Proofs.Daemon.Changes

namespace Interpose.Control

open Registry (Document Fit Mutation)

/-! ## One piece after the other -/

namespace Act

variable {σ α β : Type} {x : Act σ α} {f : α → Act σ β} {desk desk' : Desk σ} {a : α}

theorem perform_bind (x : Act σ α) (f : α → Act σ β) (desk : Desk σ) :
    (x >>= f).perform desk = match x.perform desk with
      | (.ok a, desk) => (f a).perform desk
      | (.error e, desk) => (.error e, desk) := by
  simp only [perform, bind, ExceptT.bind, ExceptT.mk, StateT.bind, ExceptT.bindCont]
  rcases x desk with ⟨_ | _, _⟩ <;> rfl

theorem perform_bind_ok (h : x.perform desk = (.ok a, desk')) :
    (x >>= f).perform desk = (f a).perform desk' := by
  rw [perform_bind, h]

theorem perform_discard_ok (h : x.perform desk = (.ok a, desk')) :
    (discard x).perform desk = (.ok (), desk') := by
  have hbind : discard x = x >>= fun _ => pure () := rfl
  rw [hbind, perform_bind_ok h]
  rfl

theorem perform_blaming_ok {g : Failure → Failure} (h : x.perform desk = (.ok a, desk')) :
    (x.blaming g).perform desk = (.ok a, desk') := by
  simp only [blaming, perform, show x desk = (.ok a, desk') from h]
  rfl

theorem perform_get : (get : Act σ (Desk σ)).perform desk = (.ok desk, desk) := rfl

theorem perform_readFile {name s : String}
    (h : desk.files.readText (desk.files.locate name) = .ok s) :
    (readFile name).perform desk = (.ok s, desk) := by
  simp only [perform, readFile, h]
  rfl

theorem perform_writeFile {name : String} {bytes : List UInt8} {files : Disk}
    (h : desk.files.write (desk.files.locate name) bytes = .ok files) :
    (writeFile name bytes).perform desk = (.ok (), { desk with files }) := by
  simp only [perform, writeFile, h]

theorem perform_print (line : String) (desk : Desk σ) :
    (print line).perform desk = (.ok (), { desk with lines := desk.lines ++ [line] }) := rfl

theorem perform_forM_print (lines : List String) (desk : Desk σ) :
    (lines.forM print).perform desk = (.ok (), { desk with lines := desk.lines ++ lines }) := by
  induction lines generalizing desk with
  | nil =>
    rw [List.append_nil]
    rfl
  | cons line lines ih =>
    have hcons : (line :: lines).forM print = (print line : Act σ Unit) >>= fun _ => lines.forM print :=
      rfl
    rw [hcons, perform_bind_ok (perform_print line desk), ih, List.append_assoc]
    rfl

end Act

/-! ## Requests -/

section

variable {id : String} {m : Mutation}

/-- A request is understood if it names its module. -/
theorem neededId_map_eq_ok {f : String → Mutation} :
    (Daemon.neededId id).map f = .ok m ↔ id ≠ "" ∧ f id = m := by
  by_cases hid : id = ""
  · simp [hid, Daemon.neededId, Except.map]
  · rw [Daemon.neededId, if_neg (by simpa using hid)]
    simp [Except.map, hid]

theorem mutationOf_install (info : ModuleInfo) :
    Daemon.mutationOf (.install info) = .ok (.install (.ofInfo info)) := rfl

theorem mutationOf_setScope (id : String) (mode : ScopeMode) (s : WireScope) :
    Daemon.mutationOf (.setScope { moduleId := id, mode := mode.code, scope := some s })
      = (Daemon.neededId id).map (.setScope · mode (.ofWire s)) := by
  rw [Daemon.mutationOf, ScopeMode.ofCode?_code]
  rfl

/-- Whether a module is to be enabled or disabled, it is one change of this module. -/
theorem mutationOf_switch (id : String) (enable : Bool) : Daemon.mutationOf
    (if enable then .enable { moduleId := id } else .disable { moduleId := id })
      = (Daemon.neededId id).map fun id => if enable then .enable id else .disable id := by
  cases enable <;> rfl

theorem moduleId_switch (id : String) (enable : Bool) :
    (if enable then Mutation.enable id else .disable id).moduleId = id := by
  cases enable <;> rfl

theorem edit_switch (id : String) (enable : Bool) (old : Module) :
    (if enable then Mutation.enable id else .disable id).edit old = some { old with enabled := enable } := by
  cases enable <;> rfl

end

/-! ## Calls -/

theorem listing_ok (desk : Desk Daemon) :
    (listing Daemon.manager).perform desk = (.ok desk.behind.getRegistry.modules, desk) := rfl

/-- A listing has the module that the registry has under an id. -/
theorem find?_toInfo {d : Document} (hkeyed : ∀ id m, d.get? id = some m → m.id = id) (id : String) :
    find? (d.modules.values.map Module.toInfo) id = (d.get? id).map Module.toInfo := by
  cases hfind : find? (d.modules.values.map Module.toInfo) id with
  | none =>
    cases hget : d.get? id with
    | none => rfl
    | some m =>
      have hmem := List.mem_map_of_mem (f := Module.toInfo) (Keyed.mem_values.mpr ⟨id, hget⟩)
      have hother := List.find?_eq_none.mp hfind _ hmem
      exact absurd (hkeyed id m hget) (by simpa [Module.toInfo] using hother)
  | some info =>
    obtain ⟨m, hm, rfl⟩ := List.mem_map.mp (List.mem_of_find?_eq_some hfind)
    obtain ⟨k, hget⟩ := Keyed.mem_values.mp hm
    have hid : m.id = id := by simpa [Module.toInfo] using List.find?_some hfind
    obtain rfl : k = id := (hkeyed k m hget).symm.trans hid
    exact (congrArg (Option.map Module.toInfo) hget).symm

variable (desk : Desk Daemon) {op : MutationOp} {m : Mutation} {next : Document}

theorem perform_change : (change Daemon.manager op).perform desk
    = ((statusOf (desk.behind.mutateRegistry { op := some op }).1).mapError .remote,
      { desk with behind := (desk.behind.mutateRegistry { op := some op }).2.settle }) := rfl

/-- **A change that can be made and saved is made**; so can be the next one. -/
theorem change_ok (hm : Daemon.mutationOf op = .ok m)
    (hnext : desk.behind.registry.current.next m = .ok next)
    (hwrites : Daemon.Writes none desk.behind) :
    ∃ d, (change Daemon.manager op).perform desk
        = (.ok { registryVersion := next.version, touched := (next.get? m.moduleId).map Module.toInfo },
          { desk with behind := d }) ∧
      d.registry.current = next ∧ Daemon.Writes none d := by
  obtain ⟨disk, hsave⟩ := (Registry.Store.save_isOk (d := next)).mpr hwrites.2
  have hmade : ∃ d, desk.behind.mutateRegistry { op := some op } = (.ok {
        registryVersion := next.version
        touched := (next.get? m.moduleId).map Module.toInfo }, d) ∧
      d.registry.current = next ∧ d.store = desk.behind.store ∧ d.disk = disk := by
    rw [Daemon.mutateRegistry, Daemon.mutateRegistryWith, Option.elim_some, hm]
    exact ⟨_, Daemon.mutateWith_saved hnext hsave, rfl, rfl, rfl⟩
  obtain ⟨d, hcall, hcurrent, hstore, hdisk⟩ := hmade
  refine ⟨d.settle, by rw [perform_change, hcall]; rfl, hcurrent, rfl, ?_⟩
  show d.disk.Accepts d.store.path
  rw [hstore, hdisk]
  exact Registry.Store.accepts_save hsave

/-- **A change that cannot be made leaves the registry as it was**, and the store too. -/
theorem change_refused (h : ∀ m next, Daemon.mutationOf op = .ok m →
      desk.behind.registry.current.next m ≠ .ok next) :
    ∃ e d, (change Daemon.manager op).perform desk = (.error e, { desk with behind := d }) ∧
      d.registry = desk.behind.registry ∧ d.disk = desk.behind.disk ∧ d.store = desk.behind.store := by
  have hrefused : ∃ e, desk.behind.mutateRegistry { op := some op } = (.error e, desk.behind) := by
    rw [Daemon.mutateRegistry, Daemon.mutateRegistryWith, Option.elim_some]
    cases hm : Daemon.mutationOf op with
    | error e => exact ⟨e, rfl⟩
    | ok m =>
      cases hnext : desk.behind.registry.current.next m with
      | error why => exact ⟨_, Daemon.mutateWith_refused hnext⟩
      | ok next => exact absurd hnext (h m next hm)
  obtain ⟨e, hcall⟩ := hrefused
  exact ⟨_, desk.behind.settle, by rw [perform_change, hcall]; rfl, rfl, rfl, rfl⟩

/-! ## One module -/

/-- One module was changed, and the registry can still be saved. -/
structure Changed (before after : Daemon) (id : String) (new : Module) : Prop where
  there : after.registry.current.get? id = some new
  others : ∀ x, x ≠ id → after.registry.current.get? x = before.registry.current.get? x
  writes : Daemon.Writes none after

theorem Changed.refl {d : Daemon} {id : String} {m : Module}
    (hget : d.registry.current.get? id = some m) (hwrites : Daemon.Writes none d) :
    Changed d d id m :=
  ⟨hget, fun _ _ => rfl, hwrites⟩

theorem Changed.trans {a b c : Daemon} {id : String} {m n : Module} (h : Changed a b id m)
    (h' : Changed b c id n) : Changed a c id n :=
  ⟨h'.there, fun x hx => (h'.others x hx).trans (h.others x hx), h'.writes⟩

/-- **A module that is there can be edited.** -/
theorem change_edit {old new : Module} (hm : Daemon.mutationOf op = .ok m)
    (hold : desk.behind.registry.current.get? m.moduleId = some old) (hedit : m.edit old = some new)
    (hfit : ∀ n, m = .install n → Fit n) (hwrites : Daemon.Writes none desk.behind) :
    ∃ d, (change Daemon.manager op).perform desk
        = (.ok { registryVersion := d.version, touched := some new.toInfo }, { desk with behind := d }) ∧
      Changed desk.behind d m.moduleId new := by
  obtain ⟨next, hnext⟩ := (Document.next_isOk (d := desk.behind.registry.current) (m := m)).mpr
    ⟨hfit, fun _ => by simp [hold]⟩
  have hget := (Document.get?_next_of_some hnext hold).1.trans hedit
  obtain ⟨d, hcall, rfl, hwrites'⟩ := change_ok desk hm hnext hwrites
  rw [hget] at hcall
  exact ⟨d, hcall, hget, fun x hx => Document.get?_next_of_ne hnext hx, hwrites'⟩

/-- A module that is there can be enabled and disabled. -/
theorem change_switch (op : MutationOp) (on : Bool) {id : String} {old : Module} (hid : id ≠ "")
    (hop : op = if on then .enable { moduleId := id } else .disable { moduleId := id })
    (hold : desk.behind.registry.current.get? id = some old)
    (hwrites : Daemon.Writes none desk.behind) :
    ∃ d, (change Daemon.manager op).perform desk
        = (.ok { registryVersion := d.version, touched := some { old with enabled := on }.toInfo },
          { desk with behind := d }) ∧
      Changed desk.behind d id { old with enabled := on } := by
  have hm : Daemon.mutationOf op = .ok (if on then .enable id else .disable id) := by
    rw [hop, mutationOf_switch]
    exact neededId_map_eq_ok.mpr ⟨hid, rfl⟩
  have hmade := change_edit desk hm (by rwa [moduleId_switch]) (edit_switch id on old)
    (fun n hn => by cases on <;> exact nomatch hn) hwrites
  rwa [moduleId_switch] at hmade

/-! ## A daemon to give commands to -/

/-- A daemon whose registry has not been saved yet. -/
def unsaved (current : Document) : Daemon := {
  Daemon.boot default { tokens := { name := toString } } with
  store := Registry.Store.withKey ["registry.json"] "key"
  registry := { current } }

theorem unsaved_writes (current : Document) : Daemon.Writes none (unsaved current) := by
  refine ⟨rfl, fun q hq bytes hfile => ?_, fun h => (nomatch h)⟩
  cases List.mem_singleton.mp hq
  cases hfile

end Interpose.Control
