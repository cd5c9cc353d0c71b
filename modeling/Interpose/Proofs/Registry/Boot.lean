/-
Interpose.Proofs.Registry.Boot — what opening a store comes to, whatever is at its place.

There are three cases, and what is at the place decides between them
(`load_cases`): nothing is there; a file is there that reads as a document
with the tag of that document; or there is something else, be it a file
that says less, a directory, or a file where a directory would have to be
on the way. Only in the last case is there a warning, and only then is
anything moved. If the move is made, the bad content is whole in its new
place and the old place is empty; if it fails nothing has changed. However
the registry was opened, the next change that is saved can be opened again.

A file on the way counts as something at the place, although there is no
entry at the path then (`boots_behind_file`): the daemon cannot tell that
nothing was stored.

Main statement: `boots`.
-/
import Interpose.Proofs.Disk.Moving
import Interpose.Proofs.Registry.Life
import Interpose.Proofs.Registry.Sealed

namespace Interpose.Registry

namespace Store

variable {s : Store} {disk disk' : Disk} {fault : Option DiskFault}

/-! ## Moving a file out of the way -/

/-- A move out of the way that may be kept from happening. -/
def quarantineUnless (s : Store) (fault : Option DiskFault) (disk : Disk) :
    Except DiskFault Disk :=
  match fault with
  | some e => .error e
  | none => s.quarantine disk

/-- Opens the registry, where the move out of the way may be kept from happening. -/
def boot (s : Store) (fault : Option DiskFault) (disk : Disk) : Live × Disk :=
  Live.startWith (s.quarantineUnless fault) s disk

theorem boot_none (s : Store) (disk : Disk) : s.boot none disk = Live.start s disk := rfl

/-- The place beside the file is neither the file's nor above it. -/
theorem asidePath_not_prefix (s : Store) : ¬ s.asidePath <+: s.path := by
  intro h
  rw [asidePath] at h
  by_cases hnil : s.path = []
  · rw [hnil] at h
    simp at h
  · have hlen : (s.path.dropLast ++ [s.path.getLastD "" ++ ".corrupt"]).length = s.path.length := by
      have hpos := List.length_pos_iff.mpr hnil
      rw [List.length_append, List.length_dropLast, List.length_singleton]
      omega
    have hlast := congrArg (fun p => (List.getLastD p "").length) (h.eq_of_length hlen)
    simp at hlast

/-- **A file that was moved out of the way is whole in its new place**, and
nothing is left in the old one. -/
theorem quarantined (h : s.quarantineUnless fault disk = .ok disk') :
    (∀ r, disk'.find (s.asidePath ++ r) = disk.find (s.path ++ r)) ∧ disk'.Lacks s.path := by
  cases fault with
  | some e => cases h
  | none =>
    exact ⟨Disk.find_rename h s.asidePath_not_prefix, Disk.lacks_rename h s.asidePath_not_prefix⟩

/-! ## The three cases -/

/-- What is read is a document with a tag, and the tag is that document's. -/
def Verifies (s : Store) (bytes : List UInt8) (d : Document) : Prop :=
  (Json.parse bytes).bind sealedOfJson? = some (d, s.tag d.canonical)

/-- There is a document at the place, which can be trusted. -/
def Stores (s : Store) (disk : Disk) (d : Document) : Prop :=
  ∃ bytes, disk.read s.path = .ok bytes ∧ s.Verifies bytes d

theorem Stores.not_lacks {d : Document} (h : s.Stores disk d) : ¬ disk.Lacks s.path := by
  obtain ⟨bytes, hread, _⟩ := h
  intro hlacks
  rw [Disk.read_eq_notFound.mpr hlacks] at hread
  cases hread

theorem load_of_lacks (h : disk.Lacks s.path) : s.load disk = .ok none := by
  rw [load, Disk.read_eq_notFound.mpr h]

theorem load_of_stores {d : Document} (h : s.Stores disk d) : s.load disk = .ok (some d) := by
  obtain ⟨bytes, hread, hverifies⟩ := h
  rw [load_of_read hread, decode_eq_ok.mpr hverifies]
  rfl

/-- **What is at the place decides what is loaded**: there are no other cases. -/
theorem load_cases (s : Store) (disk : Disk) :
    disk.Lacks s.path ∨ (∃ d, s.Stores disk d) ∨ ∃ fault, s.load disk = .error fault := by
  cases hread : disk.read s.path with
  | error e =>
    by_cases he : e = .notFound
    · exact .inl (Disk.read_eq_notFound.mp (he ▸ hread))
    · right; right
      refine ⟨.io e, ?_⟩
      rw [load, hread]
      cases e <;> first | rfl | exact absurd rfl he
  | ok bytes =>
    right
    cases hdecode : s.decode bytes with
    | ok d => exact .inl ⟨d, bytes, hread, decode_eq_ok.mp hdecode⟩
    | error fault =>
      refine .inr ⟨fault, ?_⟩
      rw [load_of_read hread, hdecode]
      rfl

/-! ## Booting -/

theorem boot_of_lacks (h : disk.Lacks s.path) (fault : Option DiskFault) :
    s.boot fault disk = ({}, disk) := by
  rw [boot, Live.startWith, load_of_lacks h]

theorem boot_of_stores {d : Document} (h : s.Stores disk d) (fault : Option DiskFault) :
    s.boot fault disk = ({ current := d }, disk) := by
  rw [boot, Live.startWith, load_of_stores h]

theorem boot_of_moved {e : StoreFault} (h : s.load disk = .error e)
    (hmove : s.quarantineUnless fault disk = .ok disk') :
    s.boot fault disk =
      ({ warning := some ⟨e, .ok (disk'.pathText s.asidePath)⟩ }, disk') := by
  rw [boot, Live.startWith, h]
  dsimp only
  rw [hmove]

theorem boot_of_unmoved {e : StoreFault} {why : DiskFault} (h : s.load disk = .error e)
    (hmove : s.quarantineUnless fault disk = .error why) :
    s.boot fault disk = ({ warning := some ⟨e, .error why⟩ }, disk) := by
  rw [boot, Live.startWith, h]
  dsimp only
  rw [hmove]

/-- **A warning tells what was done.** -/
theorem warned {w : Warning} (h : (s.boot fault disk).1.warning = some w) :
    (∃ disk', s.quarantineUnless fault disk = .ok disk' ∧
      w.moved = .ok (disk'.pathText s.asidePath) ∧ (s.boot fault disk).2 = disk') ∨
    ∃ why, s.quarantineUnless fault disk = .error why ∧ w.moved = .error why ∧
      (s.boot fault disk).2 = disk := by
  obtain hlacks | ⟨d, hstores⟩ | ⟨e, hload⟩ := load_cases s disk
  · rw [boot_of_lacks hlacks] at h
    cases h
  · rw [boot_of_stores hstores] at h
    cases h
  · cases hmove : s.quarantineUnless fault disk with
    | ok disk' =>
      rw [boot_of_moved hload hmove] at h ⊢
      cases h
      exact .inl ⟨disk', rfl, rfl, rfl⟩
    | error why =>
      rw [boot_of_unmoved hload hmove] at h ⊢
      cases h
      exact .inr ⟨why, rfl, rfl, rfl⟩

/-- What a change that is saved leaves can be opened again. -/
theorem stores_of_ask {w : World} {m : Mutation} {f : Option StoreFault} {o : MutationOutcome}
    (h : (w.ask s m f).1 = .ok o) :
    s.Stores (w.ask s m f).2.disk (w.ask s m f).2.live.current := by
  rcases World.ask_cases s w m f with ⟨next, -, -, hlive, hholds⟩ | ⟨e, herror, -⟩
  · obtain ⟨bytes, hread, hdecode⟩ := hholds
    rw [hlive]
    exact ⟨bytes, hread, decode_eq_ok.mp hdecode⟩
  · rw [herror] at h
    cases h

/-- The world that was opened. -/
def booted (s : Store) (fault : Option DiskFault) (disk : Disk) : World where
  live := (s.boot fault disk).1
  disk := (s.boot fault disk).2

/-- **What opening a store comes to**, when the move out of the way is made
unless it is kept from happening. -/
structure Boots (s : Store) (fault : Option DiskFault) (disk : Disk) : Prop where
  /-- Where there is nothing, the registry is empty; nothing is said and nothing is touched. -/
  missing : disk.Lacks s.path → s.boot fault disk = ({}, disk)
  /-- Where a document is stored the registry has precisely that; nothing is
  said and nothing is touched. -/
  stored : ∀ d, s.Stores disk d → s.boot fault disk = ({ current := d }, disk)
  /-- In all other cases the registry is empty and says what is wrong. -/
  discarded : ¬ disk.Lacks s.path → (∀ d, ¬ s.Stores disk d) →
    ∃ w, (s.boot fault disk).1 = { warning := some w } ∧ s.load disk = .error w.fault
  /-- No two of these are the case, nor are two documents stored. -/
  apart : ∀ d, s.Stores disk d → ¬ disk.Lacks s.path ∧ ∀ d', s.Stores disk d' → d' = d
  /-- So it is silent in the first two cases and in no others. -/
  silent : (s.boot fault disk).1.warning = none ↔ disk.Lacks s.path ∨ ∃ d, s.Stores disk d
  /-- A warning that says where the bad content is now is right: all of it is
  there, as it was, and the place is free, so that opening the store once
  more finds nothing and has nothing to say. -/
  moved : ∀ w place, (s.boot fault disk).1.warning = some w → w.moved = .ok place →
    s.quarantineUnless fault disk = .ok (s.boot fault disk).2 ∧
      place = (s.boot fault disk).2.pathText s.asidePath ∧
      (∀ r, (s.boot fault disk).2.find (s.asidePath ++ r) = disk.find (s.path ++ r)) ∧
      ∀ fault', s.boot fault' (s.boot fault disk).2 = ({}, (s.boot fault disk).2)
  /-- A warning that says why nothing was moved is right, too. -/
  unmoved : ∀ w e, (s.boot fault disk).1.warning = some w → w.moved = .error e →
    s.quarantineUnless fault disk = .error e ∧ (s.boot fault disk).2 = disk
  /-- Whatever happens next and however often the store is opened: when a change
  is saved, a later daemon has exactly what is in memory then. -/
  saved : ∀ hs m f o, (((s.booted fault disk).run s hs).ask s m f).1 = .ok o →
    ∀ fault', s.boot fault' (((s.booted fault disk).run s hs).ask s m f).2.disk =
      ({ current := (((s.booted fault disk).run s hs).ask s m f).2.live.current },
        (((s.booted fault disk).run s hs).ask s m f).2.disk)

/-- **Opening a store never fails and never loads half of it**, whatever is at
its place and whether or not that can be moved. -/
theorem boots (s : Store) (fault : Option DiskFault) (disk : Disk) : Boots s fault disk := by
  constructor
  case missing => exact fun hlacks => boot_of_lacks hlacks fault
  case stored => exact fun d hstores => boot_of_stores hstores fault
  case discarded =>
    intro hlacks hstores
    obtain h | ⟨d, h⟩ | ⟨e, hload⟩ := load_cases s disk
    · exact absurd h hlacks
    · exact absurd h (hstores d)
    · cases hmove : s.quarantineUnless fault disk with
      | ok disk' => exact ⟨_, congrArg Prod.fst (boot_of_moved hload hmove), hload⟩
      | error why => exact ⟨_, congrArg Prod.fst (boot_of_unmoved hload hmove), hload⟩
  case apart =>
    refine fun d hstores => ⟨hstores.not_lacks, fun d' hstores' => ?_⟩
    have hload := (load_of_stores hstores').symm.trans (load_of_stores hstores)
    exact Option.some.inj (Except.ok.inj hload)
  case silent =>
    constructor
    · intro hsilent
      obtain hlacks | hstores | ⟨e, hload⟩ := load_cases s disk
      · exact .inl hlacks
      · exact .inr hstores
      · cases hmove : s.quarantineUnless fault disk with
        | ok disk' => rw [boot_of_moved hload hmove] at hsilent; cases hsilent
        | error why => rw [boot_of_unmoved hload hmove] at hsilent; cases hsilent
    · rintro (hlacks | ⟨d, hstores⟩)
      · rw [boot_of_lacks hlacks]
      · rw [boot_of_stores hstores]
  case moved =>
    intro w place hwarning hplace
    obtain ⟨disk', hmove, hmoved, hdisk⟩ | ⟨why, -, hmoved, -⟩ := warned hwarning
    · rw [hdisk]
      obtain ⟨hfind, hlacks⟩ := quarantined hmove
      exact ⟨hmove, Except.ok.inj (hplace.symm.trans hmoved), hfind, boot_of_lacks hlacks⟩
    · cases hplace.symm.trans hmoved
  case unmoved =>
    intro w e hwarning he
    obtain ⟨disk', -, hmoved, -⟩ | ⟨why, hmove, hmoved, hdisk⟩ := warned hwarning
    · cases he.symm.trans hmoved
    · cases he.symm.trans hmoved
      exact ⟨hmove, hdisk⟩
  case saved =>
    exact fun hs m f o hanswer fault' => boot_of_stores (stores_of_ask hanswer) fault'

/-- A file where a directory is needed on the way: there is no entry at the
path, and yet the registry says that it cannot be read. -/
theorem boots_behind_file :
    let s := withKey ["sub", "registry.json"] "key"
    let disk : Disk := { entries := [(["sub"], .file [])] }
    disk.entry? s.path = none ∧
      (s.boot none disk).1.warning
        = some { fault := .io .notADirectory, moved := .error .notADirectory } :=
  ⟨rfl, rfl⟩

end Store

end Interpose.Registry
