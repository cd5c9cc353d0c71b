/-
Interpose.Proofs.Control.Backup — a backup that was written to a file is read as it was.

The document is written with all its fields, so the lenient reader finds
every one of them (`Backup.parse_render`), and it is text, so that reading
it as text gives it at all (`Backup.readText_write`). What a backup says of
a module is what the registry needs to have it again, but for its install
number: the code, the priority, the scope and whether it was enabled.
-/
import Interpose.Control.Backup
import Interpose.Proofs.Disk
import Interpose.Proofs.Json.Printing
import Interpose.Proofs.Registry.Document
import Interpose.Proofs.Registry.Written
import Interpose.Proofs.Scope

namespace Interpose

open Json

namespace Control

/-! ## The document -/

namespace Backup

theorem plain_entryJson (e : EntryPoint) : Plain (entryJson e) := by
  simp [entryJson, plain_record, plain_str]

theorem plain_targetJson (t : ScopeTarget) : Plain (targetJson t) := by
  rw [targetJson, plain_record]
  cases t.userId <;> simp [plain_str, plain_uint32]

theorem plain_moduleJson (m : BackupModule) : Plain (moduleJson m) := by
  simp [moduleJson, plain_record, plain_str, plain_bool, plain_array, plain_entryJson,
    plain_targetJson, plain_int32]

theorem plain_toJson (b : Backup) : Plain b.toJson := by
  simp [toJson, plain_record, plain_array, plain_moduleJson, plain_uint32]

theorem entryOfJson?_entryJson (e : EntryPoint) : entryOfJson? (entryJson e) = some e := rfl

theorem targetOfJson?_targetJson (t : ScopeTarget) : targetOfJson? (targetJson t) = some t := by
  obtain ⟨appId, userId⟩ := t
  cases userId with
  | none => rfl
  | some u =>
    have hfields : (targetJson ⟨appId, some u⟩).fields? ["package", "userId"]
        = some [some (.str appId), some (.int u.toNat)] := fields?_record rfl (by decide)
    rw [targetOfJson?, hfields]
    simp [needed, withDefault, nullable?, str, text?, uint32?_toNat]

theorem moduleOfJson?_moduleJson (m : BackupModule) : moduleOfJson? (moduleJson m) = some m := by
  have hentries : list? entryOfJson? (.array (m.entryPoints.map entryJson)) = some m.entryPoints :=
    mapM_map_eq_some fun e _ => entryOfJson?_entryJson e
  have hscope : list? targetOfJson? (.array (m.scope.map targetJson)) = some m.scope :=
    mapM_map_eq_some fun t _ => targetOfJson?_targetJson t
  have hfields : (moduleJson m).fields?
      ["package", "enable", "priority", "entryPoints", "allApps", "scope"]
        = some [some (.str m.id), some (.bool m.enable), some (.int m.priority.toInt),
          some (.array (m.entryPoints.map entryJson)), some (.bool m.allApps),
          some (.array (m.scope.map targetJson))] := fields?_record rfl (by decide)
  rw [moduleOfJson?, hfields]
  simp [needed, withDefault, str, text?, bool?, hentries, hscope, int32?_toInt]

theorem ofJson?_toJson (b : Backup) : ofJson? b.toJson = some b := by
  have hmodules : list? moduleOfJson? (.array (b.modules.map moduleJson)) = some b.modules :=
    mapM_map_eq_some fun m _ => moduleOfJson?_moduleJson m
  have hfields : b.toJson.fields? ["version", "modules"]
      = some [some (.int b.version.toNat), some (.array (b.modules.map moduleJson))] :=
    fields?_record rfl (by decide)
  rw [ofJson?, hfields]
  simp [needed, uint32?_toNat, hmodules]

/-- **A backup that was written is read as it was**, unless it is of another version. -/
theorem parse_render {b : Backup} (h : b.version = Defaults.backupVersion) :
    parse b.render = .ok b := by
  rw [parse, render, parse_render_line b.plain_toJson, Option.bind_some, ofJson?_toJson]
  exact if_pos h

theorem isText_render (b : Backup) : Text.IsText b.render :=
  (Json.isText_render b.toJson).append (Text.isText_ascii (by decide))

/-- A backup in a file is found there as text. -/
theorem readText_write {b : Backup} {d d' : Disk} {p : Path} (h : d.write p b.render = .ok d') :
    ∃ s, d'.readText p = .ok s ∧ s.toUTF8.toList = b.render := by
  obtain ⟨s, hs⟩ := b.isText_render
  refine ⟨s, ?_, hs⟩
  rw [Disk.readText, Disk.read_write h, ← hs]
  dsimp only
  rw [Text.fromUTF8?_toUTF8]
  rfl

end Backup

/-! ## The modules -/

namespace BackupModule

theorem wireScope_ofInfo (m : Module) : (ofInfo m.toInfo).wireScope = m.scope.toWire := by
  cases h : m.scope <;> simp [ofInfo, wireScope, Module.toInfo, h]

/-- What a backup says of a module is enough to install it. -/
theorem fit_ofInfo {m : Module} (h : Registry.Fit m) :
    Registry.Fit (.ofInfo (ofInfo m.toInfo).toInstall) :=
  ⟨h.id_not_blank, h.some_entry_point, h.no_blank_path⟩

end BackupModule

theorem ids_ofModules (ms : List Module) :
    (Backup.ofModules (ms.map Module.toInfo)).modules.map (·.id) = ms.map (·.id) := by
  simp [Backup.ofModules, BackupModule.ofInfo, Module.toInfo]

end Control

end Interpose
