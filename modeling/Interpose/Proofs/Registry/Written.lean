/-
Interpose.Proofs.Registry.Written — a registry that was written down is read as it was.

Each record is written with all its fields, under their own names and in
one order, so that the lenient reader finds every one of them. Together
with `Json.parse_render` and the tag, this makes the content of the store
a faithful copy of the document (`Store.decode_encode`).
-/
import Interpose.Registry.Store
import Interpose.Proofs.Json.RoundTrip
import Interpose.Proofs.Keyed

namespace Interpose

/-! ## Lists and records -/

/-- A list that is written item by item is read item by item. -/
theorem mapM_map_eq_some {α β : Type} {f : α → β} {g : β → Option α} {l : List α}
    (h : ∀ x ∈ l, g (f x) = some x) : (l.map f).mapM g = some l := by
  induction l with
  | nil => rfl
  | cons x l ih =>
    rw [List.map_cons, List.mapM_cons, h x List.mem_cons_self,
      ih fun y hy => h y (List.mem_cons_of_mem x hy)]
    rfl

namespace Json

theorem plainItems_iff {vs : List Json} : PlainItems vs ↔ ∀ v ∈ vs, Plain v := by
  induction vs with
  | nil => simp [PlainItems]
  | cons v vs ih => simp [PlainItems, ih]

theorem plain_array {vs : List Json} : Plain (.array vs) ↔ ∀ v ∈ vs, Plain v := plainItems_iff

theorem plain_record {ms : List (String × Json)} :
    Plain (.record ms) ↔ ∀ m ∈ ms, Plain m.2 := by
  show PlainMembers (ms.map fun m => (some m.1, m.2)) ↔ _
  induction ms with
  | nil => simp [PlainMembers]
  | cons m ms ih =>
    rw [List.map_cons, PlainMembers, ih]
    simp

theorem plain_bool (b : Bool) : Plain (.bool b) := trivial

theorem plain_str (s : String) : Plain (.str s) := rfl

theorem plain_uint32 (u : UInt32) : Plain (.int u.toNat) := by
  have := u.toNat_lt
  simp only [Plain, UInt64.size]
  omega

theorem plain_uint64 (u : UInt64) : Plain (.int u.toNat) := by
  have := u.toNat_lt
  simp only [Plain, UInt64.size]
  omega

theorem plain_int32 (i : Int32) : Plain (.int i.toInt) := by
  have := i.le_toInt
  have := i.toInt_lt
  simp only [Plain, UInt64.size]
  omega

theorem uint32?_toNat (u : UInt32) : uint32? (.int u.toNat) = some u := by
  have := u.toNat_lt
  rw [uint32?, int?, if_pos (by simp [UInt32.size]; omega), Option.map_some]
  simp

theorem uint64?_toNat (u : UInt64) : uint64? (.int u.toNat) = some u := by
  have := u.toNat_lt
  rw [uint64?, int?, if_pos (by simp [UInt64.size]; omega), Option.map_some]
  simp

theorem int32?_toInt (i : Int32) : int32? (.int i.toInt) = some i := by
  rw [int32?, int?, if_pos ⟨i.minValue_le_toInt, i.toInt_le⟩, Option.map_some, Int32.ofInt_toInt]

/-- A key that comes once is found. -/
theorem once?_of_mem {ms : List (String × Json)} (hdistinct : (ms.map (·.1)).Nodup)
    {m : String × Json} (hm : m ∈ ms) :
    once? (ms.map fun m => (some m.1, m.2)) m.1 = some (some m.2) := by
  have hother : ∀ {ns : List (String × Json)}, m.1 ∉ ns.map (·.1) →
      (ns.map fun m => (some m.1, m.2)).filter (·.1 == some m.1) = [] := by
    intro ns hns
    simp only [List.filter_eq_nil_iff, List.mem_map]
    rintro _ ⟨n, hn, rfl⟩ heq
    exact hns (List.mem_map.mpr ⟨n, hn, by simpa using heq⟩)
  have hfilter : (ms.map fun m => (some m.1, m.2)).filter (·.1 == some m.1)
      = [(some m.1, m.2)] := by
    induction ms with
    | nil => exact absurd hm List.not_mem_nil
    | cons n ns ih =>
      obtain ⟨hn, hns⟩ := List.nodup_cons.mp hdistinct
      rw [List.map_cons, List.filter_cons]
      rcases List.mem_cons.mp hm with rfl | hm
      · rw [if_pos (by simp), hother hn]
      · have hne : n.1 ≠ m.1 := fun heq => hn (List.mem_map.mpr ⟨m, hm, heq.symm⟩)
        rw [if_neg (by simpa using hne), ih hns hm]
  rw [once?, hfilter]

/-- **A record is read with all its fields**, in the order they were written. -/
theorem fields?_record {ms : List (String × Json)} {names : List String}
    (hnames : ms.map (·.1) = names) (hdistinct : names.Nodup) :
    (record ms).fields? names = some (ms.map fun m => some m.2) := by
  subst hnames
  have honce : ∀ {ns : List (String × Json)}, (∀ m ∈ ns, m ∈ ms) →
      (ns.map (·.1)).mapM (once? (ms.map fun m => (some m.1, m.2)))
        = some (ns.map fun m => some m.2) := by
    intro ns
    induction ns with
    | nil => intro _; rfl
    | cons n ns ih =>
      intro h
      rw [List.map_cons, List.mapM_cons, once?_of_mem hdistinct (h n List.mem_cons_self),
        ih fun m hm => h m (List.mem_cons_of_mem n hm)]
      rfl
  rw [record, fields?, if_pos (by simp), honce fun _ h => h]

end Json

open Json

/-! ## Modules -/

theorem ScopeTarget.plain_toJson (t : ScopeTarget) : Plain t.toJson := by
  rw [toJson, plain_record]
  cases t.userId <;> simp [plain_str, plain_uint32]

theorem ScopeTarget.ofJson?_toJson (t : ScopeTarget) : ofJson? t.toJson = some t := by
  obtain ⟨appId, userId⟩ := t
  cases userId with
  | none => rfl
  | some u =>
    have hfields : (toJson ⟨appId, some u⟩).fields? ["app_id", "user_id"]
        = some [some (.str appId), some (.int u.toNat)] := fields?_record rfl (by decide)
    rw [ofJson?, hfields]
    simp [needed, withDefault, nullable?, str, text?, uint32?_toNat]

theorem ModuleScope.plain_toJson (s : ModuleScope) : Plain s.toJson := by
  cases s with
  | all => simp [toJson, plain_record, plain_str]
  | apps targets => simp [toJson, plain_record, plain_str, plain_array, ScopeTarget.plain_toJson]

theorem ModuleScope.ofJson?_toJson (depth : Nat) (s : ModuleScope) :
    ofJson? depth s.toJson = some s := by
  cases s with
  | all => rfl
  | apps targets =>
    have htargets : list? ScopeTarget.ofJson? (.array (targets.map (·.toJson))) = some targets :=
      mapM_map_eq_some fun t _ => t.ofJson?_toJson
    have hfields : (toJson (.apps targets)).fields? ["kind", "targets"]
        = some [some (.str "apps"), some (.array (targets.map (·.toJson)))] :=
      fields?_record rfl (by decide)
    rw [toJson, record, ofJson?, ← record, ← toJson, hfields]
    simp [targetsFirst, str, ScopeKind.ofJson?, ofParts?, htargets]

theorem EntryPoint.plain_toJson (e : EntryPoint) : Plain e.toJson := by
  simp [toJson, plain_record, plain_str]

theorem EntryPoint.ofJson?_toJson (e : EntryPoint) : ofJson? e.toJson = some e := rfl

theorem Module.plain_toJson (m : Module) : Plain m.toJson := by
  simp [toJson, plain_record, plain_str, plain_bool, plain_array, ModuleScope.plain_toJson,
    EntryPoint.plain_toJson, plain_int32, plain_uint64]

theorem Module.ofJson?_toJson (depth : Nat) (m : Module) : ofJson? depth m.toJson = some m := by
  have hentries : list? EntryPoint.ofJson? (.array (m.entryPoints.map (·.toJson)))
      = some m.entryPoints := mapM_map_eq_some fun e _ => e.ofJson?_toJson
  have hfields : m.toJson.fields?
      ["id", "enabled", "scope", "entry_points", "priority", "install_seq"]
        = some [some (.str m.id), some (.bool m.enabled), some m.scope.toJson,
          some (.array (m.entryPoints.map (·.toJson))), some (.int m.priority.toInt),
          some (.int m.installSeq.toNat)] := fields?_record rfl (by decide)
  rw [ofJson?, hfields]
  simp [needed, withDefault, str, text?, bool?, ModuleScope.ofJson?_toJson, hentries,
    int32?_toInt, uint64?_toNat]

namespace Registry

/-! ## Documents -/

namespace Document

theorem plain_toJson (d : Document) : Plain d.toJson := by
  have hmodules : Plain (.record (d.modules.entries.map fun e => (e.1, e.2.toJson))) := by
    rw [plain_record]
    intro m hm
    obtain ⟨e, _, rfl⟩ := List.mem_map.mp hm
    exact e.2.plain_toJson
  rw [toJson, plain_record]
  simp [plain_uint64, hmodules]

theorem modulesOfJson?_entries (depth : Nat) (ms : Keyed Module) :
    modulesOfJson? depth (.record (ms.entries.map fun e => (e.1, e.2.toJson))) = some ms := by
  simp only [modulesOfJson?, record]
  rw [List.map_map, mapM_map_eq_some, Option.map_some, Keyed.ofList_entries]
  intro e _
  simp [Module.ofJson?_toJson]

/-- **A document that was written down is read as it was.** -/
theorem ofJson?_toJson (depth : Nat) (d : Document) : ofJson? depth d.toJson = some d := by
  have hfields : d.toJson.fields? ["version", "next_seq", "modules"]
      = some [some (.int d.version.toNat), some (.int d.nextSeq.toNat),
        some (.record (d.modules.entries.map fun e => (e.1, e.2.toJson)))] :=
    fields?_record rfl (by decide)
  rw [ofJson?, hfields]
  simp [needed, uint64?_toNat, modulesOfJson?_entries]

end Document

theorem sealedOfJson?_sealedJson (d : Document) (signature : String) :
    sealedOfJson? (sealedJson d signature) = some (d, signature) := by
  have hfields : (sealedJson d signature).fields? ["data", "signature"]
      = some [some d.toJson, some (.str signature)] := fields?_record rfl (by decide)
  rw [sealedOfJson?, hfields]
  simp [needed, str, text?, Document.ofJson?_toJson]

/-- **What the store writes for a document, it reads as that document.** -/
theorem Store.decode_encode (s : Store) (d : Document) : s.decode (s.encode d) = .ok d := by
  have hplain : Plain (sealedJson d (s.tag d.canonical)) := by
    simp [sealedJson, plain_record, plain_str, d.plain_toJson]
  rw [decode, encode, parse_render hplain, Option.bind_some, sealedOfJson?_sealedJson]
  exact if_pos rfl

end Registry

end Interpose
