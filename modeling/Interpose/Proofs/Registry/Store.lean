/-
Interpose.Proofs.Registry.Store — what the store holds, and what is opened from it.

A store either holds a document or has nothing at its place (`Holds`). A
save succeeds where a file can be put (`save_isOk`) and makes the store
hold the document that was saved (`holds_save`); one that fails leaves the
file as it was (`save_eq_error`). Opening gives the document the store
holds, or the empty one (`start_of_holds`).
-/
import Interpose.Proofs.Disk
import Interpose.Proofs.Registry.Written
import Interpose.Registry.Live

namespace Interpose.Registry

namespace Store

variable {s : Store} {d : Document} {disk disk' : Disk} {e : StoreFault}

/-- The store holds this document, however it is laid out; or, without one,
there is nothing at its place. -/
def Holds (s : Store) (o : Option Document) (disk : Disk) : Prop :=
  match o with
  | none => disk.entry? s.path = none
  | some d => ∃ bytes, disk.read s.path = .ok bytes ∧ s.decode bytes = .ok d

/-! ## Saving -/

/-- A save makes the directories that lead to the file, and writes it. -/
theorem save_eq_ok : s.save d disk = (.ok (), disk') ↔
    ∃ disk₁, disk.makeDirs s.path.dropLast = .ok disk₁ ∧
      disk₁.write s.path (s.encode d) = .ok disk' := by
  rw [save]
  cases disk.makeDirs s.path.dropLast with
  | error e => simp
  | ok disk₁ =>
    cases hwrite : disk₁.write s.path (s.encode d) <;> simp [hwrite]

/-- **What was saved is held.** -/
theorem holds_save (h : s.save d disk = (.ok (), disk')) : s.Holds (some d) disk' := by
  obtain ⟨disk₁, _, hwrite⟩ := save_eq_ok.mp h
  exact ⟨s.encode d, Disk.read_write hwrite, s.decode_encode d⟩

/-- The file is not among the directories that lead to it. -/
theorem path_not_mem_dirs (hne : s.path ≠ []) :
    s.path ∉ Disk.above s.path.dropLast ++ [s.path.dropLast] := by
  have hpos := List.length_pos_iff.mpr hne
  intro hmem
  have hlen : s.path.length ≤ s.path.dropLast.length := by
    rcases List.mem_append.mp hmem with habove | hlast
    · obtain ⟨n, hn, heq⟩ := Disk.mem_above.mp habove
      have := congrArg List.length heq
      rw [List.length_take] at this
      omega
    · exact Nat.le_of_eq (congrArg List.length (List.mem_singleton.mp hlast))
  rw [List.length_dropLast] at hlen
  omega

/-- **A save that fails leaves the file as it was**, and takes nothing away. -/
theorem save_eq_error (h : s.save d disk = (.error e, disk')) :
    disk'.entry? s.path = disk.entry? s.path ∧ disk.Keeps disk' := by
  rw [save] at h
  cases hdirs : disk.makeDirs s.path.dropLast with
  | error e =>
    rw [hdirs] at h
    cases h
    exact ⟨rfl, fun _ _ h => h⟩
  | ok disk₁ =>
    rw [hdirs] at h
    dsimp only at h
    cases hwrite : disk₁.write s.path (s.encode d) with
    | ok disk₂ => simp [hwrite] at h
    | error e =>
      rw [hwrite] at h
      cases h
      refine ⟨?_, Disk.kept_makeDirs hdirs⟩
      by_cases hpath : s.path = []
      · rw [hpath, Disk.entry?_nil, Disk.entry?_nil]
      · exact Disk.entry?_makeDirs hdirs (path_not_mem_dirs hpath)

theorem Holds.save_error {o : Option Document} (ho : s.Holds o disk)
    (h : s.save d disk = (.error e, disk')) : s.Holds o disk' := by
  obtain ⟨hentry, hkeeps⟩ := save_eq_error h
  cases o with
  | none => exact hentry.trans ho
  | some d =>
    obtain ⟨bytes, hread, hdecode⟩ := ho
    exact ⟨bytes, hkeeps.read hread, hdecode⟩

/-- **A save succeeds where a file can be put**, whatever the document is. -/
theorem save_isOk : (∃ disk', s.save d disk = (.ok (), disk')) ↔ disk.Accepts s.path := by
  constructor
  · rintro ⟨disk', h⟩
    obtain ⟨disk₁, hdirs, hwrite⟩ := save_eq_ok.mp h
    obtain ⟨-, hplace⟩ := Disk.write_isOk.mp ⟨disk', hwrite⟩
    have hne := Disk.ne_nil_of_not_dir hplace
    refine ⟨?_, ?_⟩
    · rw [Disk.above_eq_concat hne]
      exact Disk.makeDirs_isOk.mp ⟨disk₁, hdirs⟩
    · rwa [← Disk.entry?_makeDirs hdirs (path_not_mem_dirs hne)]
  · rintro ⟨hway, hplace⟩
    have hne := Disk.ne_nil_of_not_dir hplace
    have habove := Disk.above_eq_concat hne
    rw [habove] at hway
    obtain ⟨disk₁, hdirs⟩ := Disk.makeDirs_isOk.mpr hway
    have hwalk : disk₁.walk s.path = .ok () :=
      Disk.walk_eq_ok.mpr fun q hq => Disk.dir_makeDirs hdirs (habove ▸ hq)
    rw [← Disk.entry?_makeDirs hdirs (path_not_mem_dirs hne)] at hplace
    obtain ⟨disk', hwrite⟩ := Disk.write_isOk.mpr ⟨hwalk, hplace⟩
    exact ⟨disk', save_eq_ok.mpr ⟨disk₁, hdirs, hwrite⟩⟩

/-- Where one document was saved the next one can be. -/
theorem accepts_save (h : s.save d disk = (.ok (), disk')) : disk'.Accepts s.path := by
  obtain ⟨disk₁, _, hwrite⟩ := save_eq_ok.mp h
  obtain ⟨hwalk, hentry⟩ := Disk.read_eq_ok.mp (Disk.read_write hwrite)
  refine ⟨fun q hq bytes hbytes => ?_, by simp [hentry]⟩
  rw [Disk.walk_eq_ok.mp hwalk q hq] at hbytes
  cases hbytes

/-! ## Opening -/

theorem load_of_holds_none (h : s.Holds none disk) :
    s.load disk = .ok none ∨
      ∃ e fault, s.load disk = .error fault ∧ s.quarantine disk = .error e := by
  cases hwalk : disk.walk s.path with
  | ok u =>
    have hfind : disk.find s.path = .ok none := Disk.find_eq_ok.mpr ⟨hwalk, h⟩
    left
    simp [load, Disk.read, hfind, bind, Except.bind]
  | error e =>
    have hfind : disk.find s.path = .error e := by rw [Disk.find, hwalk]; rfl
    have hread : disk.read s.path = .error e := by simp [Disk.read, hfind, bind, Except.bind]
    by_cases he : e = .notFound
    · left
      rw [load, hread, he]
    · right
      refine ⟨e, .io e, ?_, ?_⟩
      · rw [load, hread]
        cases e <;> first | rfl | exact absurd rfl he
      · simp [quarantine, Disk.rename, hfind, bind, Except.bind]

/-- **Opening gives what the store holds**, or else the empty registry; it
changes no file, and the channel starts anew. -/
theorem start_of_holds {o : Option Document} (h : s.Holds o disk) :
    (Live.start s disk).1.current = o.getD {} ∧
      (Live.start s disk).1.bumps = { capacity := bumpCapacity } ∧
      (Live.start s disk).2 = disk := by
  cases o with
  | some d =>
    have hload : s.load disk = .ok (some d) := by
      obtain ⟨bytes, hread, hdecode⟩ := h
      rw [load, hread]
      show (s.decode bytes).map some = _
      rw [hdecode]
      rfl
    rw [Live.start, Live.startWith, hload]
    exact ⟨rfl, rfl, rfl⟩
  | none =>
    rcases load_of_holds_none h with hload | ⟨e, fault, hload, hmove⟩
    · rw [Live.start, Live.startWith, hload]
      exact ⟨rfl, rfl, rfl⟩
    · rw [Live.start, Live.startWith, hload]
      dsimp only
      rw [hmove]
      exact ⟨rfl, rfl, rfl⟩

end Store

end Interpose.Registry
