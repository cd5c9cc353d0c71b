/-
Interpose.Proofs.Disk — what is found where on a disk after a change.

A path is told from the paths it leads through: these are shorter, so that
putting an entry at a path leaves the way to it as it was. From this come
the facts a store rests on: what was written is read (`read_write`),
making directories only adds to what is there (`entry?_makeDirs`,
`kept_makeDirs`), and it is known beforehand where a file can be put
(`Accepts`).
-/
import Interpose.Disk

namespace Interpose.Disk

variable {d d' : Disk} {p q : Path} {e : DiskEntry}

/-! ## Paths -/

theorem mem_above : q ∈ above p ↔ ∃ n < p.length, q = p.take n := by
  simp [above, eq_comm]

theorem ne_of_mem_above (h : q ∈ above p) : q ≠ p := by
  obtain ⟨n, hn, rfl⟩ := mem_above.mp h
  intro heq
  have hlen := congrArg List.length heq
  rw [List.length_take] at hlen
  omega

/-- The way to an entry ends with the directory that it is in. -/
theorem above_concat (p : Path) (n : String) : above (p ++ [n]) = above p ++ [p] := by
  rw [above, List.length_append, List.length_singleton, List.range_succ, List.map_append,
    List.map_singleton, List.take_left, above]
  refine congrArg (· ++ [p]) (List.map_congr_left fun i hi => ?_)
  exact List.take_append_of_le_length (Nat.le_of_lt (List.mem_range.mp hi))

theorem above_eq_concat (hp : p ≠ []) : above p = above p.dropLast ++ [p.dropLast] :=
  (congrArg above (List.dropLast_concat_getLast hp)).symm.trans (above_concat ..)

/-! ## Entries -/

theorem entry?_nil : d.entry? [] = some .dir := rfl

theorem ne_nil_of_not_dir (h : d.entry? p ≠ some .dir) : p ≠ [] := by
  rintro rfl
  exact h entry?_nil

theorem entry?_of_ne_nil (hp : p ≠ []) : d.entry? p = d.entries.lookup p := by
  rw [ entry?, if_neg (by simpa using hp)]

/-- An entry is found where it was put, and nowhere else. -/
theorem entry?_put (hp : p ≠ []) :
    Disk.entry? (d.put p e) q = if q = p then some e else d.entry? q := by
  by_cases hq : q = []
  · subst hq
    rw [if_neg (Ne.symm hp), entry?_nil, entry?_nil]
  · have hlookup : ∀ es : List (Path × DiskEntry), q ≠ p →
        (es.filter (·.1 != p)).lookup q = es.lookup q := by
      intro es hne
      induction es with
      | nil => rfl
      | cons x es ih =>
        obtain ⟨r, y⟩ := x
        by_cases hr : r = p
        · have hqr : (q == r) = false := by simpa [hr] using hne
          simp [List.lookup_cons, ih, hr, hr ▸ hqr]
        · simp [List.lookup_cons, ih, hr]
    rw [entry?_of_ne_nil hq, entry?_of_ne_nil hq, put, List.lookup_cons]
    by_cases hqp : q = p
    · simp [hqp]
    · rw [beq_eq_false_iff_ne.mpr hqp, if_neg hqp]
      exact hlookup d.entries hqp

/-! ## Walking -/

/-- A path can be walked when directories lead to it. -/
theorem walk_eq_ok : d.walk p = .ok () ↔ ∀ q ∈ above p, d.entry? q = some .dir := by
  rw [walk, List.forM_eq_forM]
  generalize above p = qs
  induction qs with
  | nil => simp [pure, Except.pure]
  | cons q qs ih =>
    rw [List.forM_cons, List.forall_mem_cons]
    cases hq : d.entry? q with
    | none => simp [bind, Except.bind]
    | some e => cases e <;> simp [bind, Except.bind, ih]

theorem find_eq_ok {o : Option DiskEntry} :
    d.find p = .ok o ↔ d.walk p = .ok () ∧ d.entry? p = o := by
  rw [find]
  cases d.walk p with
  | error e => simp [Except.map]
  | ok u => simp [Except.map]

/-- A disk on which everything that was on another is as it was there. -/
def Keeps (d d' : Disk) : Prop := ∀ q e, d.entry? q = some e → d'.entry? q = some e

theorem Keeps.walk (h : Keeps d d') (hw : d.walk p = .ok ()) : d'.walk p = .ok () :=
  walk_eq_ok.mpr fun q hq => h q .dir (walk_eq_ok.mp hw q hq)

/-! ## Reading and writing -/

theorem read_eq_ok {bytes : List UInt8} :
    d.read p = .ok bytes ↔ d.walk p = .ok () ∧ d.entry? p = some (.file bytes) := by
  rw [read]
  cases hf : d.find p with
  | error e =>
    refine ⟨fun h => by simp [bind, Except.bind] at h, fun h => ?_⟩
    have hok := find_eq_ok.mpr h
    rw [hf] at hok
    cases hok
  | ok o =>
    obtain ⟨hw, rfl⟩ := find_eq_ok.mp hf
    rw [hw]
    cases d.entry? p with
    | none => simp [bind, Except.bind]
    | some e => cases e <;> simp [bind, Except.bind]

/-- A file that is kept is read as before. -/
theorem Keeps.read (h : Keeps d d') {bytes : List UInt8} (hr : d.read p = .ok bytes) :
    d'.read p = .ok bytes := by
  obtain ⟨hw, hentry⟩ := read_eq_ok.mp hr
  exact read_eq_ok.mpr ⟨h.walk hw, h p _ hentry⟩

theorem write_eq_ok {bytes : List UInt8} (h : d.write p bytes = .ok d') :
    p ≠ [] ∧ d.walk p = .ok () ∧ d' = d.put p (.file bytes) := by
  rw [write] at h
  cases hf : d.find p with
  | error e => simp [hf, bind, Except.bind] at h
  | ok o =>
    obtain ⟨hw, rfl⟩ := find_eq_ok.mp hf
    rw [hf] at h
    by_cases hdir : d.entry? p = some .dir
    · simp [hdir, bind, Except.bind] at h
    · refine ⟨ne_nil_of_not_dir hdir, hw, ?_⟩
      cases hentry : d.entry? p with
      | none => simpa [hentry, bind, Except.bind, eq_comm] using h
      | some e =>
        cases e with
        | dir => exact absurd hentry hdir
        | file old => simpa [hentry, bind, Except.bind, eq_comm] using h

/-- **What was written is read.** -/
theorem read_write {bytes : List UInt8} (h : d.write p bytes = .ok d') :
    d'.read p = .ok bytes := by
  obtain ⟨hp, hw, rfl⟩ := write_eq_ok h
  refine read_eq_ok.mpr ⟨walk_eq_ok.mpr fun q hq => ?_, ?_⟩
  · rw [entry?_put hp, if_neg (ne_of_mem_above hq)]
    exact walk_eq_ok.mp hw q hq
  · rw [entry?_put hp, if_pos rfl]

theorem write_isOk {bytes : List UInt8} :
    (∃ d', d.write p bytes = .ok d') ↔ d.walk p = .ok () ∧ d.entry? p ≠ some .dir := by
  constructor
  · rintro ⟨d', h⟩
    refine ⟨(write_eq_ok h).2.1, fun hdir => ?_⟩
    rw [write, find_eq_ok.mpr ⟨(write_eq_ok h).2.1, hdir⟩] at h
    cases h
  · rintro ⟨hw, hdir⟩
    rw [write, find_eq_ok.mpr ⟨hw, rfl⟩]
    rcases hentry : d.entry? p with _ | ⟨_ | _⟩
    · exact ⟨_, rfl⟩
    · exact ⟨_, rfl⟩
    · exact absurd hentry hdir

/-! ## Making directories -/

/-- Makes a directory where there is nothing. -/
def addDir (d : Disk) (q : Path) : Disk := if (d.entry? q).isSome then d else d.put q .dir

theorem makeDirs_eq_ok (h : d.makeDirs p = .ok d') : d' = (above p ++ [p]).foldl addDir d := by
  unfold makeDirs at h
  extract_lets isFile at h
  split at h
  · cases h
  · split at h
    · cases h
    · exact (Except.ok.inj h).symm

theorem entry?_addDir (d : Disk) (q r : Path) :
    Disk.entry? (d.addDir q) r = if r = q then some ((d.entry? r).getD .dir) else d.entry? r := by
  rw [addDir]
  cases hq : d.entry? q with
  | some e =>
    by_cases hr : r = q
    · simp [hr, hq]
    · simp [hr]
  | none =>
    have hne : q ≠ [] := ne_nil_of_not_dir (d := d) (by simp [hq])
    by_cases hr : r = q
    · simp [hr, hq, entry?_put hne]
    · simp [hr, entry?_put hne]

theorem kept_addDir (d : Disk) (q : Path) : Keeps d (d.addDir q) := by
  intro r e h
  rw [entry?_addDir, h]
  split <;> rfl

theorem kept_addDirs (d : Disk) (qs : List Path) : Keeps d (qs.foldl addDir d) := by
  induction qs generalizing d with
  | nil => exact fun _ _ h => h
  | cons q qs ih => exact fun r e hr => ih (d.addDir q) r e (kept_addDir d q r e hr)

/-- Making directories keeps what is there. -/
theorem kept_makeDirs (h : d.makeDirs p = .ok d') : Keeps d d' := by
  rw [makeDirs_eq_ok h]
  exact kept_addDirs d _

/-- Making directories touches nothing but the way to the last of them. -/
theorem entry?_makeDirs (h : d.makeDirs p = .ok d') (hq : q ∉ above p ++ [p]) :
    d'.entry? q = d.entry? q := by
  rw [makeDirs_eq_ok h]
  clear h
  revert hq
  generalize above p ++ [p] = qs
  intro hq
  induction qs generalizing d with
  | nil => rfl
  | cons r qs ih =>
    obtain ⟨hr, hqs⟩ := List.ne_and_not_mem_of_not_mem_cons hq
    rw [List.foldl_cons, ih hqs, entry?_addDir, if_neg hr]

/-- There is no file at any of these places. -/
def NoFiles (d : Disk) (qs : List Path) : Prop :=
  ∀ q ∈ qs, ∀ bytes, d.entry? q ≠ some (.file bytes)

theorem makeDirs_isOk : (∃ d', d.makeDirs p = .ok d') ↔ d.NoFiles (above p ++ [p]) := by
  unfold makeDirs
  extract_lets isFile
  have hfile : ∀ q, isFile q = true ↔ ∃ bytes, d.entry? q = some (.file bytes) := by
    intro q
    dsimp only [isFile]
    rcases d.entry? q with _ | ⟨_ | _⟩ <;> simp
  split
  · rename_i hany
    obtain ⟨q, hq, hisFile⟩ := List.any_eq_true.mp hany
    obtain ⟨bytes, hbytes⟩ := (hfile q).mp hisFile
    constructor
    · rintro ⟨_, h⟩
      cases h
    · exact fun h => absurd hbytes (h q (List.mem_append_left _ hq) bytes)
  · rename_i hany
    split
    · rename_i hisFile
      obtain ⟨bytes, hbytes⟩ := (hfile p).mp hisFile
      constructor
      · rintro ⟨_, h⟩
        cases h
      · exact fun h => absurd hbytes (h p (List.mem_append_right _ (List.mem_singleton.mpr rfl)) bytes)
    · rename_i hnot
      refine ⟨fun _ q hq bytes hbytes => ?_, fun _ => ⟨_, rfl⟩⟩
      rcases List.mem_append.mp hq with habove | hlast
      · exact hany (List.any_eq_true.mpr ⟨q, habove, (hfile q).mpr ⟨bytes, hbytes⟩⟩)
      · rw [List.mem_singleton.mp hlast] at hbytes
        exact hnot ((hfile p).mpr ⟨bytes, hbytes⟩)

theorem NoFiles.addDir {qs : List Path} (h : d.NoFiles (q :: qs)) : (d.addDir q).NoFiles qs := by
  intro r hr bytes
  rw [entry?_addDir]
  by_cases hrq : r = q
  · rw [if_pos hrq]
    cases hentry : d.entry? r with
    | none => simp
    | some e =>
      rw [← hentry]
      simpa [hentry] using h r (List.mem_cons_of_mem q hr) bytes
  · rw [if_neg hrq]
    exact h r (List.mem_cons_of_mem q hr) bytes

theorem dir_addDirs {qs : List Path} (h : d.NoFiles qs) (hq : q ∈ qs) :
    Disk.entry? (qs.foldl addDir d) q = some .dir := by
  induction qs generalizing d with
  | nil => exact absurd hq List.not_mem_nil
  | cons r qs ih =>
    rcases List.mem_cons.mp hq with rfl | hqs
    · have hdir : Disk.entry? (d.addDir q) q = some .dir := by
        rw [entry?_addDir, if_pos rfl]
        cases hentry : d.entry? q with
        | none => rfl
        | some e =>
          cases e with
          | dir => rfl
          | file bytes => exact absurd hentry (h q List.mem_cons_self bytes)
      exact kept_addDirs (d.addDir q) qs q .dir hdir
    · exact ih h.addDir hqs

/-- Directories that were made are there. -/
theorem dir_makeDirs (h : d.makeDirs p = .ok d') (hq : q ∈ above p ++ [p]) :
    d'.entry? q = some .dir := by
  rw [makeDirs_eq_ok h]
  exact dir_addDirs (makeDirs_isOk.mp ⟨d', h⟩) hq

/-! ## Where a file can be put -/

/-- Nothing but directories leads to a place, as far as anything does, and
there is no directory at the place itself. -/
def Accepts (d : Disk) (p : Path) : Prop := d.NoFiles (above p) ∧ d.entry? p ≠ some .dir

end Interpose.Disk
