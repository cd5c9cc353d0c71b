/-
Interpose.Proofs.Registry.Scope — the registry and a process mean the same modules.

Whether a module is meant for a process is asked twice, once of the
registry's module and once of the record that travelled, and twice modules
are put into order. The record answers as the module does
(`appliesTo_toInfo`). In a document whose install numbers are distinct the
order leaves no choice: along what is offered priorities fall, and among
equals the numbers rise. So sorting it again changes nothing.

Main statement: `offers_applicable`.
-/
import Interpose.Proofs.Module.Order
import Interpose.Proofs.Registry.Document
import Interpose.Proofs.Scope

namespace Interpose

/-! ## Modules that travel -/

theorem Module.appliesTo_iff {m : Module} {app : AppDescriptor} :
    m.appliesTo app = true ↔ m.enabled = true ∧ m.scope.covers app = true := by
  rw [appliesTo, Bool.and_eq_true]

/-- A record is meant for whom its module is meant for. -/
theorem Module.appliesTo_toInfo (m : Module) (app : AppDescriptor) :
    m.toInfo.appliesTo app = m.appliesTo app :=
  congrArg (m.enabled && ·) (m.scope.covers_toWire app)

/-- One module stands before another for good: by its priority, or else by its number. -/
def ModuleInfo.Ahead (a b : ModuleInfo) : Prop :=
  b.priority < a.priority ∨ (a.priority = b.priority ∧ a.installSeq < b.installSeq)

theorem ModuleInfo.Ahead.before {a b : ModuleInfo} (h : a.Ahead b) : a.before b = true :=
  appliesBefore_iff.mpr (h.imp_right fun ⟨hp, hi⟩ => ⟨hp, .inl hi⟩)

namespace Registry

/-! ## What a document offers -/

namespace Document

variable {d : Document} {app : AppDescriptor}

theorem mem_applicable {m : Module} :
    m ∈ d.applicable app ↔ (∃ id, d.get? id = some m) ∧ m.appliesTo app = true := by
  rw [applicable, Module.inOrder, List.mem_mergeSort, List.mem_filter, Keyed.mem_values]
  rfl

/-- A sound document offers the ids under which a module stands that applies. -/
theorem Sound.mem_offered (hd : d.Sound) {id : String} :
    id ∈ (d.applicable app).map (·.id) ↔ ∃ m, d.get? id = some m ∧ m.appliesTo app = true := by
  rw [List.mem_map]
  constructor
  · rintro ⟨m, hm, rfl⟩
    obtain ⟨⟨k, hk⟩, hmeant⟩ := mem_applicable.mp hm
    obtain rfl := hd.keyed k m hk
    exact ⟨m, hk, hmeant⟩
  · rintro ⟨m, hm, hmeant⟩
    exact ⟨m, mem_applicable.mpr ⟨⟨id, hm⟩, hmeant⟩, hd.keyed id m hm⟩

/-- The ids of a sound document's modules are its keys, and rise as they do. -/
theorem Sound.rising_ids (hd : d.Sound) : (d.modules.values.map (·.id)).Pairwise (· < ·) := by
  have hkeys : d.modules.values.map (·.id) = d.modules.entries.map (·.1) := by
    rw [Keyed.values, List.map_map]
    exact List.map_congr_left fun e he => hd.keyed e.1 e.2 (Keyed.mem_entries.mp he)
  rw [hkeys]
  exact List.pairwise_map.mpr d.modules.rising

/-- The modules of a sound document have ids of their own. -/
theorem Sound.nodup_ids (hd : d.Sound) : (d.modules.values.map (·.id)).Nodup := by
  refine hd.rising_ids.imp fun {a b} hlt heq => ?_
  rw [heq] at hlt
  exact String.lt_irrefl _ hlt

theorem Sound.nodup_applicable (hd : d.Sound) (app : AppDescriptor) :
    ((d.applicable app).map (·.id)).Nodup := by
  have hperm : (d.applicable app).Perm (d.modules.values.filter (·.appliesTo app)) :=
    List.mergeSort_perm _ _
  exact (hperm.map _).nodup_iff.mpr (hd.nodup_ids.sublist (List.filter_sublist.map _))

/-- Two modules of a document are never equal in both priority and number. -/
theorem ahead_of_before (hs : d.Sound) (hn : d.Numbered) {a b : Module}
    (ha : a ∈ d.applicable app) (hb : b ∈ d.applicable app) (hne : a.id ≠ b.id)
    (h : a.before b = true) : a.toInfo.Ahead b.toInfo := by
  obtain ⟨⟨k, hk⟩, _⟩ := mem_applicable.mp ha
  obtain ⟨⟨l, hl⟩, _⟩ := mem_applicable.mp hb
  rcases appliesBefore_iff.mp h with hp | ⟨hp, hi | ⟨hi, _⟩⟩
  · exact .inl hp
  · exact .inr ⟨hp, hi⟩
  · have hkl : k = l := hn.distinct k l a b hk hl hi
    exact absurd ((hs.keyed k a hk).trans (hkl.trans (hs.keyed l b hl).symm)) hne

end Document

/-! ## What a process makes of it -/

/-- These records are what a document has for a process: the enabled modules
that cover it, all of them and no others, in an order that leaves no choice. -/
structure Offers (d : Document) (app : AppDescriptor) (infos : List ModuleInfo) : Prop where
  mem : ∀ info, info ∈ infos ↔
    ∃ id m, d.get? id = some m ∧ m.enabled = true ∧ m.scope.covers app = true ∧ info = m.toInfo
  ids : (infos.map (·.moduleId)).Nodup
  strict : infos.Pairwise ModuleInfo.Ahead

/-- **What a document has for a process it offers.** -/
theorem offers_applicable {d : Document} (hs : d.Sound) (hn : d.Numbered) (app : AppDescriptor) :
    Offers d app ((d.applicable app).map Module.toInfo) where
  mem := by
    intro info
    rw [List.mem_map]
    constructor
    · rintro ⟨m, hm, rfl⟩
      obtain ⟨⟨id, hid⟩, hmeant⟩ := Document.mem_applicable.mp hm
      obtain ⟨henabled, hcovers⟩ := Module.appliesTo_iff.mp hmeant
      exact ⟨id, m, hid, henabled, hcovers, rfl⟩
    · rintro ⟨id, m, hid, henabled, hcovers, rfl⟩
      exact ⟨m, Document.mem_applicable.mpr ⟨⟨id, hid⟩, Module.appliesTo_iff.mpr
        ⟨henabled, hcovers⟩⟩, rfl⟩
  ids := by
    rw [List.map_map]
    exact hs.nodup_applicable app
  strict := by
    have hsorted := Module.pairwise_inOrder (d.modules.values.filter (·.appliesTo app))
    have hids := List.pairwise_map.mp (hs.nodup_applicable app)
    refine List.pairwise_map.mpr ((hsorted.and hids).imp_of_mem ?_)
    exact fun ha hb ⟨hbefore, hne⟩ => Document.ahead_of_before hs hn ha hb hne hbefore

namespace Offers

variable {d : Document} {app : AppDescriptor} {infos : List ModuleInfo}

/-- The process passes over none of them. -/
theorem filter_appliesTo (h : Offers d app infos) : infos.filter (·.appliesTo app) = infos := by
  refine List.filter_eq_self.mpr fun info hinfo => ?_
  obtain ⟨_, m, _, henabled, hcovers, rfl⟩ := (h.mem info).mp hinfo
  rw [Module.appliesTo_toInfo]
  exact Module.appliesTo_iff.mpr ⟨henabled, hcovers⟩

/-- The process leaves them in their order. -/
theorem inOrder (h : Offers d app infos) : ModuleInfo.inOrder infos = infos :=
  List.mergeSort_of_pairwise (h.strict.imp ModuleInfo.Ahead.before)

end Offers

end Registry

end Interpose
