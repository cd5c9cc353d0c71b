/-
Interpose.Proofs.Disk.Moving — what is found where after an entry was moved.

A place can be told from any other by how a walk to it ends, and whatever
can be said of a disk below some path depends on the entries below that
path alone (`walk_below`). So it is enough to know the entries after a move:
those below the source are below the target, nothing is left below the
source, and no other entry has changed. A file has nothing below it, which
is why a moved file is found like a moved directory, whatever there was at
the target before.

Main statements: `find_rename`, `lacks_rename`.
-/
import Mathlib.Data.List.Induction
import Interpose.Proofs.Disk

namespace Interpose.Disk

variable {d d' : Disk} {p q r t : Path} {e : DiskEntry}

/-! ## How a walk ends -/

/-- What a walk says of an entry that it has to go through. -/
theorem walk_concat (d : Disk) (p : Path) (n : String) :
    d.walk (p ++ [n]) = (d.walk p).bind fun _ =>
      match d.entry? p with
      | some .dir => .ok ()
      | some (.file _) => .error .notADirectory
      | none => .error .notFound := by
  rw [walk, above_concat, List.forM_eq_forM, List.forM_append, List.forM_cons, List.forM_nil]
  show (d.walk p).bind _ = _
  congr 1
  funext _
  rcases d.entry? p with _ | ⟨_ | _⟩ <;> rfl

/-- Walks to places below two paths end alike where the entries below them
are alike. -/
theorem walk_below (hp : d.walk p = .ok ()) (hq : d'.walk q = .ok ())
    (h : ∀ r, d'.entry? (q ++ r) = d.entry? (p ++ r)) (r : Path) :
    d'.walk (q ++ r) = d.walk (p ++ r) := by
  induction r using List.reverseRecOn with
  | nil => rw [List.append_nil, List.append_nil, hp, hq]
  | append_singleton r n ih =>
    rw [← List.append_assoc, ← List.append_assoc, walk_concat, walk_concat, ih, h r]

/-- There is no way through a file. -/
theorem walk_below_file {bytes : List UInt8} (hp : d.walk p = .ok ())
    (hfile : d.entry? p = some (.file bytes)) (hr : r ≠ []) :
    d.walk (p ++ r) = .error .notADirectory := by
  induction r using List.reverseRecOn with
  | nil => exact absurd rfl hr
  | append_singleton r n ih =>
    rw [← List.append_assoc, walk_concat]
    by_cases hnil : r = []
    · rw [hnil, List.append_nil, hp, hfile]
      rfl
    · rw [ih hnil]
      rfl

/-! ## Places with nothing at them -/

/-- The way to a place ends at a path that has nothing at it: at the place
itself, or at a directory that would have to be above it. -/
def Lacks (d : Disk) (p : Path) : Prop :=
  ∃ q ∈ above p ++ [p], d.walk q = .ok () ∧ d.entry? q = none

theorem walk_eq_notFound :
    d.walk p = .error .notFound ↔ ∃ q ∈ above p, d.walk q = .ok () ∧ d.entry? q = none := by
  induction p using List.reverseRecOn with
  | nil =>
    refine iff_of_false (fun h => ?_) (by simp [above])
    cases h
  | append_singleton p n ih =>
    have hstep : d.walk (p ++ [n]) = .error .notFound ↔
        d.walk p = .error .notFound ∨ d.walk p = .ok () ∧ d.entry? p = none := by
      rw [walk_concat]
      cases d.walk p with
      | error e => simp [Except.bind]
      | ok _ => rcases d.entry? p with _ | ⟨_ | _⟩ <;> simp [Except.bind]
    rw [hstep, ih, above_concat]
    simp only [List.mem_append, List.mem_singleton, or_and_right, exists_or, exists_eq_left]

/-- **A place lacks an entry when reading says that there is none.** -/
theorem read_eq_notFound : d.read p = .error .notFound ↔ d.Lacks p := by
  have hlacks : d.Lacks p ↔
      d.walk p = .error .notFound ∨ d.walk p = .ok () ∧ d.entry? p = none := by
    rw [walk_eq_notFound]
    simp only [Lacks, List.mem_append, List.mem_singleton, or_and_right, exists_or, exists_eq_left]
  rw [hlacks, read, find]
  cases d.walk p with
  | error e => simp [Except.map, bind, Except.bind]
  | ok _ => rcases d.entry? p with _ | ⟨_ | _⟩ <;> simp [Except.map, bind, Except.bind]

/-! ## Entries that were carried -/

theorem lookup_filter_path (f : Path → Bool) (es : List (Path × DiskEntry)) :
    (es.filter fun e => f e.1).lookup t = if f t then es.lookup t else none := by
  induction es with
  | nil => simp
  | cons x es ih =>
    obtain ⟨r, y⟩ := x
    by_cases htr : t = r
    · subst htr
      cases hf : f t <;> simp [hf, ih]
    · have hne : (t == r) = false := beq_eq_false_iff_ne.mpr htr
      cases hf : f r <;> simp [hf, ih, List.lookup_cons, hne]

/-- What was at and below a path, as it is after it was carried to another. -/
def carried (es : List (Path × DiskEntry)) (p q : Path) : List (Path × DiskEntry) :=
  (es.filter fun e => p.isPrefixOf e.1).map fun e => (q ++ e.1.drop p.length, e.2)

theorem lookup_carried (es : List (Path × DiskEntry)) (p q r : Path) :
    (carried es p q).lookup (q ++ r) = es.lookup (p ++ r) := by
  induction es with
  | nil => rfl
  | cons x es ih =>
    obtain ⟨t, y⟩ := x
    by_cases hpt : p <+: t
    · obtain ⟨t, rfl⟩ := hpt
      have hcons : carried ((p ++ t, y) :: es) p q = (q ++ t, y) :: carried es p q := by
        simp [carried]
      rw [hcons, List.lookup_cons, List.lookup_cons, ih]
      by_cases hrt : r = t
      · simp [hrt]
      · have happend : ∀ s : Path, (s ++ r == s ++ t) = false := fun s =>
          beq_eq_false_iff_ne.mpr fun h => hrt (List.append_cancel_left h)
        rw [happend, happend]
    · have hcons : carried ((t, y) :: es) p q = carried es p q := by
        simp [carried, hpt]
      have hne : (p ++ r == t) = false :=
        beq_eq_false_iff_ne.mpr fun h => hpt ⟨r, h⟩
      rw [hcons, ih, List.lookup_cons, hne]

theorem lookup_carried_of_not_prefix (es : List (Path × DiskEntry)) (p : Path)
    (h : ¬ q <+: t) : (carried es p q).lookup t = none := by
  refine List.lookup_eq_none_iff.mpr fun e he => bne_iff_ne.mpr fun heq => h ?_
  obtain ⟨e, _, rfl⟩ := List.mem_map.mp he
  rw [heq]
  exact List.prefix_append ..

/-! ## Moving -/

/-- The entries after a move: what was below the source is below the target,
nothing is below the source, and all others are as they were. -/
structure Moved (d d' : Disk) (p q : Path) : Prop where
  leaves : d.walk p = .ok ()
  arrives : d.walk q = .ok ()
  outward : ¬ p <+: q
  /-- A file has nothing below it, and what a disk might list there is not found. -/
  below : (∃ bytes, d.entry? p = some (.file bytes) ∧ d'.entry? q = some (.file bytes)) ∨
    ∀ r, d'.entry? (q ++ r) = d.entry? (p ++ r)
  gone : d'.entry? p = none
  others : ∀ t, ¬ p <+: t → ¬ q <+: t → d'.entry? t = d.entry? t

theorem entry?_drop (hp : p ≠ []) :
    Disk.entry? (d.drop p) t = if p <+: t then none else d.entry? t := by
  by_cases ht : t = []
  · subst ht
    rw [entry?_nil, entry?_nil, if_neg (by simpa using hp)]
  · rw [entry?_of_ne_nil ht, entry?_of_ne_nil ht]
    show (d.entries.filter fun e => !p.isPrefixOf e.1).lookup t = _
    rw [lookup_filter_path fun r => !p.isPrefixOf r]
    by_cases hpt : p <+: t
    · rw [if_pos hpt, List.isPrefixOf_iff_prefix.mpr hpt]
      rfl
    · have hfalse : p.isPrefixOf t = false :=
        Bool.eq_false_iff.mpr fun h => hpt (List.isPrefixOf_iff_prefix.mp h)
      rw [if_neg hpt, hfalse]
      rfl

/-- What a move does, if it can be made. -/
theorem rename_cases (h : d.rename p q = .ok d') (hpq : p ≠ q) :
    d.walk p = .ok () ∧ d.walk q = .ok () ∧ ¬ p <+: q ∧
      ((∃ bytes, d.entry? p = some (.file bytes) ∧ d' = (d.drop p).put q (.file bytes)) ∨
        d' = { (d.drop p).drop q with
          entries := carried d.entries p q ++ ((d.drop p).drop q).entries }) := by
  rw [rename] at h
  cases hp : d.find p with
  | error e => simp [hp, bind, Except.bind] at h
  | ok moved =>
    obtain ⟨hwalkp, hentry⟩ := find_eq_ok.mp hp
    cases hq : d.find q with
    | error e => cases moved <;> simp [hp, hq, bind, Except.bind] at h
    | ok old =>
      obtain ⟨hwalkq, -⟩ := find_eq_ok.mp hq
      cases moved with
      | none => simp [hp, bind, Except.bind] at h
      | some moved =>
        simp only [hp, hq, bind, Except.bind, if_neg hpq] at h
        by_cases hbelow : p.isPrefixOf q
        · rw [if_pos hbelow] at h
          cases h
        rw [if_neg hbelow] at h
        refine ⟨hwalkp, hwalkq, fun hprefix => hbelow (List.isPrefixOf_iff_prefix.mpr hprefix), ?_⟩
        cases moved with
        | file bytes =>
          refine .inl ⟨bytes, hentry, ?_⟩
          rcases old with _ | ⟨_ | _⟩
          · exact (Except.ok.inj h).symm
          · exact (Except.ok.inj h).symm
          · cases h
        | dir =>
          right
          by_cases hempty : (d.below q).isEmpty
          · rcases old with _ | ⟨_ | _⟩
            · exact (Except.ok.inj ((if_pos hempty).symm.trans h)).symm
            · cases h
            · exact (Except.ok.inj ((if_pos hempty).symm.trans h)).symm
          · rcases old with _ | ⟨_ | _⟩
            · cases (if_neg hempty).symm.trans h
            · cases h
            · cases (if_neg hempty).symm.trans h

theorem moved_of_rename (h : d.rename p q = .ok d') (hne : ¬ q <+: p) : Moved d d' p q := by
  have hpq : p ≠ q := fun heq => hne (heq ▸ List.prefix_rfl)
  obtain ⟨hwalkp, hwalkq, hbelow, hcases⟩ := rename_cases h hpq
  have hp : p ≠ [] := fun hp => hbelow (hp ▸ List.nil_prefix)
  have hq : q ≠ [] := fun hq => hne (hq ▸ List.nil_prefix)
  rcases hcases with ⟨bytes, hentry, rfl⟩ | rfl
  · refine ⟨hwalkp, hwalkq, hbelow, .inl ⟨bytes, hentry, ?_⟩, ?_, fun t hpt hqt => ?_⟩
    · rw [entry?_put hq, if_pos rfl]
    · rw [entry?_put hq, if_neg hpq, entry?_drop hp, if_pos List.prefix_rfl]
    · have htq : t ≠ q := fun heq => hqt (heq ▸ List.prefix_rfl)
      rw [entry?_put hq, if_neg htq, entry?_drop hp, if_neg hpt]
  · have hentries : ∀ t, t ≠ [] →
        Disk.entry? { (d.drop p).drop q with
          entries := carried d.entries p q ++ ((d.drop p).drop q).entries } t
        = ((carried d.entries p q).lookup t).or (Disk.entry? ((d.drop p).drop q) t) := by
      intro t ht
      rw [entry?_of_ne_nil ht, List.lookup_append, entry?_of_ne_nil ht]
    refine ⟨hwalkp, hwalkq, hbelow, .inr fun r => ?_, ?_, fun t hpt hqt => ?_⟩
    · rw [hentries _ (by simp [hq]), lookup_carried, entry?_drop hq,
        if_pos (List.prefix_append ..), Option.or_none, entry?_of_ne_nil (by simp [hp])]
    · rw [hentries _ hp, lookup_carried_of_not_prefix _ _ hne, Option.none_or,
        entry?_drop hq, if_neg hne, entry?_drop hp, if_pos List.prefix_rfl]
    · by_cases ht : t = []
      · rw [ht, entry?_nil, entry?_nil]
      · rw [hentries _ ht, lookup_carried_of_not_prefix _ _ hqt, Option.none_or,
          entry?_drop hq, if_neg hqt, entry?_drop hp, if_neg hpt]

namespace Moved

/-- The way to a place is left as it was, if neither the source nor the target is on it. -/
theorem walk (h : Moved d d' p q) (ht : d.walk t = .ok ())
    (hp : ∀ s ∈ above t, ¬ p <+: s) (hq : ∀ s ∈ above t, ¬ q <+: s) : d'.walk t = .ok () := by
  refine walk_eq_ok.mpr fun s hs => ?_
  rw [h.others s (hp s hs) (hq s hs)]
  exact walk_eq_ok.mp ht s hs

end Moved

/-- A path is not below one that leads through it. -/
theorem not_prefix_of_mem_above (h : ¬ q <+: p) : ∀ s ∈ above p, ¬ q <+: s := by
  intro s hs hqs
  obtain ⟨n, -, rfl⟩ := mem_above.mp hs
  exact h (hqs.trans (List.take_prefix n p))

theorem not_prefix_above (p : Path) : ∀ s ∈ above p, ¬ p <+: s := by
  intro s hs hps
  obtain ⟨n, hn, rfl⟩ := mem_above.mp hs
  have hlen := hps.length_le
  rw [List.length_take] at hlen
  omega

/-- **What was moved is found where it was moved to**, with all that is below it. -/
theorem find_rename (h : d.rename p q = .ok d') (hne : ¬ q <+: p) (r : Path) :
    d'.find (q ++ r) = d.find (p ++ r) := by
  have hm := moved_of_rename h hne
  have hwalk : d'.walk q = .ok () :=
    hm.walk hm.arrives (not_prefix_of_mem_above hm.outward) (not_prefix_above q)
  rw [find, find]
  rcases hm.below with ⟨bytes, hp, hq⟩ | hentries
  · by_cases hr : r = []
    · rw [hr, List.append_nil, List.append_nil, hwalk, hm.leaves, hp, hq]
    · rw [walk_below_file hwalk hq hr, walk_below_file hm.leaves hp hr]
      rfl
  · rw [walk_below hm.leaves hwalk hentries, hentries]

/-- **Nothing is left where it was moved from.** -/
theorem lacks_rename (h : d.rename p q = .ok d') (hne : ¬ q <+: p) : d'.Lacks p := by
  have hm := moved_of_rename h hne
  have hwalk : d'.walk p = .ok () :=
    hm.walk hm.leaves (not_prefix_above p) (not_prefix_of_mem_above hne)
  exact ⟨p, List.mem_append_right _ (List.mem_singleton.mpr rfl), hwalk, hm.gone⟩

end Interpose.Disk
