/-
Interpose.Proofs.Registry.Life — the life of a registry, from an empty place on.

In its life a registry is asked for changes, of which some are refused and
some cannot be saved, and from time to time the daemon ends and the next
one opens the store again. What holds throughout is little: the store
holds the current document (`Kept`), and the current document is what the
changes that were made led to, one after another (`row_deeds`). All that
is to be said of the modules, their numbers and the version then follows
from the row of changes.

Main statement: `World.lawful_run`.
-/
import Interpose.Proofs.Registry.Document
import Interpose.Proofs.Registry.Store

namespace Interpose.Registry

/-! ## What can happen -/

/-- A save that may be kept from happening, so that it fails at once. -/
def Store.saveUnless (s : Store) (fault : Option StoreFault) (d : Document) (disk : Disk) :
    Except StoreFault Unit × Disk :=
  match fault with
  | some e => (.error e, disk)
  | none => s.save d disk

inductive Happening where
  /-- A change is asked for; a fault keeps the store from being written. -/
  | asked (m : Mutation) (fault : Option StoreFault)
  /-- The daemon ends, and the next one opens the store. -/
  | reopened

def Happening.isAsked : Happening → Bool
  | asked _ _ => true
  | reopened => false

/-- The registry and the disk it is kept on. -/
structure World where
  live : Live
  disk : Disk

namespace World

def opened (s : Store) (disk : Disk) : World where
  live := (Live.start s disk).1
  disk := (Live.start s disk).2

/-- Asks for a change: the answer, and the world after it. -/
def ask (s : Store) (w : World) (m : Mutation) (fault : Option StoreFault) :
    Except MutationFault MutationOutcome × World :=
  let (answer, live, disk) := w.live.mutateWith (s.saveUnless fault) m w.disk
  (answer, ⟨live, disk⟩)

def step (s : Store) (w : World) : Happening → World
  | .asked m fault => (w.ask s m fault).2
  | .reopened => opened s w.disk

def run (s : Store) (w : World) (hs : List Happening) : World := hs.foldl (step s) w

/-- The change a happening makes, if it makes one. -/
def deed? (s : Store) (w : World) : Happening → Option Deed
  | .asked m fault =>
    match (w.ask s m fault).1 with
    | .ok _ => some ⟨w.live.current, m, (w.ask s m fault).2.live.current⟩
    | .error _ => none
  | .reopened => none

/-- The changes that were made, in order. -/
def deeds (s : Store) (w : World) : List Happening → List Deed
  | [] => []
  | h :: hs => (w.deed? s h).toList ++ deeds s (w.step s h) hs

variable {s : Store} {w : World} {m : Mutation} {fault : Option StoreFault}

/-! ## One happening -/

theorem saveUnless_ok {d : Document} {disk disk' : Disk}
    (h : s.saveUnless fault d disk = (.ok (), disk')) : s.Holds (some d) disk' := by
  cases fault with
  | some e => cases h
  | none => exact Store.holds_save h

theorem saveUnless_error {d : Document} {disk disk' : Disk} {e : StoreFault}
    (h : s.saveUnless fault d disk = (.error e, disk')) :
    disk'.entry? s.path = disk.entry? s.path ∧ ∀ o, s.Holds o disk → s.Holds o disk' := by
  cases fault with
  | some e =>
    cases h
    exact ⟨rfl, fun _ ho => ho⟩
  | none => exact ⟨(Store.save_eq_error h).1, fun _ ho => ho.save_error h⟩

/-- A save happens where nothing keeps it from happening and a file can be put. -/
theorem saveUnless_isOk {d : Document} {disk : Disk} :
    (∃ disk', s.saveUnless fault d disk = (.ok (), disk')) ↔
      fault = none ∧ disk.Accepts s.path := by
  cases fault with
  | some e => simp [Store.saveUnless]
  | none => exact Store.save_isOk.trans (by simp)

/-- **What comes of asking**: either the change is made, saved and told, or
nothing has changed but the answer. -/
theorem ask_cases (s : Store) (w : World) (m : Mutation) (fault : Option StoreFault) :
    (∃ next, w.live.current.next m = .ok next ∧
      (w.ask s m fault).1 = .ok (Live.outcome m next) ∧
      (w.ask s m fault).2.live
        = { w.live with current := next, bumps := w.live.bumps.send next.version } ∧
      s.Holds (some next) (w.ask s m fault).2.disk) ∨
    (∃ e, (w.ask s m fault).1 = .error e ∧ (w.ask s m fault).2.live = w.live ∧
      (w.ask s m fault).2.disk.entry? s.path = w.disk.entry? s.path ∧
      ∀ o, s.Holds o w.disk → s.Holds o (w.ask s m fault).2.disk) := by
  cases hnext : w.live.current.next m with
  | error why =>
    right
    simp [ask, Live.mutateWith, hnext]
  | ok next =>
    rcases hsave : s.saveUnless fault next w.disk with ⟨result, disk⟩
    cases result with
    | ok _ =>
      left
      refine ⟨next, rfl, ?_⟩
      simp [ask, Live.mutateWith, hnext, hsave, saveUnless_ok hsave]
    | error e =>
      right
      simpa [ask, Live.mutateWith, hnext, hsave] using saveUnless_error hsave

/-- A change that can be made is made where a file can be put, and the next
one can be put there too. -/
theorem ask_made {next : Document} (hnext : w.live.current.next m = .ok next)
    (hplace : w.disk.Accepts s.path) :
    (w.ask s m none).2.live.current = next ∧ (w.ask s m none).2.disk.Accepts s.path := by
  obtain ⟨disk, hsave⟩ := saveUnless_isOk (d := next).mpr ⟨rfl, hplace⟩
  have haccepts : disk.Accepts s.path := Store.accepts_save hsave
  simp [ask, Live.mutateWith, hnext, hsave, haccepts]

/-- The store holds the current document; an empty one it need not hold. -/
inductive Kept (s : Store) (w : World) : Prop
  | intro (o : Option Document) (holds : s.Holds o w.disk) (current : w.live.current = o.getD {})

/-- Opening the store again gives what there was. -/
theorem Kept.reopen (h : w.Kept s) :
    (opened s w.disk).live.current = w.live.current ∧ (opened s w.disk).disk = w.disk := by
  obtain ⟨o, hholds, hcurrent⟩ := h
  obtain ⟨hstart, _, hdisk⟩ := Store.start_of_holds hholds
  exact ⟨hstart.trans hcurrent.symm, hdisk⟩

theorem Kept.step (hw : w.Kept s) (h : Happening) : Kept s (w.step s h) := by
  cases h with
  | asked m fault =>
    obtain ⟨o, hholds, hcurrent⟩ := hw
    rcases ask_cases s w m fault with ⟨next, _, _, hlive, hdisk⟩ | ⟨e, _, hlive, _, hdisk⟩
    · exact ⟨some next, hdisk, congrArg Live.current hlive⟩
    · exact ⟨o, hdisk o hholds, (congrArg Live.current hlive).trans hcurrent⟩
  | reopened =>
    obtain ⟨hcurrent, hdisk⟩ := hw.reopen
    obtain ⟨o, hholds, ho⟩ := hw
    exact ⟨o, hdisk.symm ▸ hholds, hcurrent.trans ho⟩

/-- A happening makes the one change that leads to the next document, or none. -/
theorem row_deed (hw : w.Kept s) (h : Happening) :
    Row w.live.current (w.deed? s h).toList (w.step s h).live.current := by
  cases h with
  | asked m fault =>
    rcases ask_cases s w m fault with ⟨next, hnext, hanswer, hlive, _⟩ | ⟨e, hanswer, hlive, _, _⟩
    · rw [deed?, hanswer, World.step, hlive]
      exact .snoc .nil hnext
    · rw [deed?, hanswer, World.step, hlive]
      exact .nil
  | reopened =>
    show Row _ [] (opened s w.disk).live.current
    rw [hw.reopen.1]
    exact .nil

/-! ## A whole life -/

theorem Kept.run (hw : w.Kept s) (hs : List Happening) : Kept s (w.run s hs) := by
  induction hs generalizing w with
  | nil => exact hw
  | cons h hs ih => exact ih (hw.step h)

/-- **The current document is what the changes led to.** -/
theorem row_deeds (hw : w.Kept s) (hs : List Happening) :
    Row w.live.current (w.deeds s hs) (w.run s hs).live.current := by
  induction hs generalizing w with
  | nil => exact .nil
  | cons h hs ih => exact (row_deed hw h).append (ih (hw.step h))

theorem length_deeds_le (hs : List Happening) :
    (w.deeds s hs).length ≤ hs.countP (·.isAsked) := by
  induction hs generalizing w with
  | nil => exact Nat.le_refl 0
  | cons h hs ih =>
    have hone : (w.deed? s h).toList.length ≤ if h.isAsked then 1 else 0 := by
      cases h with
      | asked m fault => cases w.deed? s (.asked m fault) <;> simp [Happening.isAsked]
      | reopened => exact Nat.le_refl 0
    have hrest := ih (w := w.step s h)
    rw [deeds, List.length_append, List.countP_cons]
    omega

/-- **Changes that can all be made are made**, where a file can be put. -/
theorem current_run_asked {d : Document} (hplace : w.disk.Accepts s.path) (ms : List Mutation)
    (hd : ms.foldlM Document.next w.live.current = .ok d) :
    (w.run s (ms.map (.asked · none))).live.current = d := by
  induction ms generalizing w with
  | nil => exact Except.ok.inj hd
  | cons m ms ih =>
    rw [List.foldlM_cons] at hd
    cases hnext : w.live.current.next m with
    | error why =>
      rw [hnext] at hd
      cases hd
    | ok next =>
      obtain ⟨hcurrent, hagain⟩ := ask_made hnext hplace
      rw [hnext, ← hcurrent] at hd
      exact ih hagain hd

theorem disk_opened {disk : Disk} (hmissing : disk.entry? s.path = none) :
    (opened s disk).disk = disk :=
  (Store.start_of_holds (o := none) hmissing).2.2

/-- A place with nothing at it, just opened. -/
theorem kept_opened {disk : Disk} (hmissing : disk.entry? s.path = none) :
    (opened s disk).Kept s ∧ (opened s disk).live.current = {} := by
  have hnone : s.Holds none disk := hmissing
  have hcurrent := (Store.start_of_holds hnone).1
  refine ⟨⟨none, ?_, hcurrent⟩, hcurrent⟩
  rw [disk_opened hmissing]
  exact hnone

/-- The document is what the changes of a life that began so led to. -/
theorem row_run {disk : Disk} (hmissing : disk.entry? s.path = none) (hs : List Happening) :
    Row {} ((opened s disk).deeds s hs) ((opened s disk).run s hs).live.current := by
  obtain ⟨hkept, hempty⟩ := kept_opened hmissing
  have hrow := row_deeds hkept hs
  rwa [hempty] at hrow

/-- At every moment of a life that began so the document is sound, and its
numbers are in order as long as there were enough of them. -/
theorem sound_run {disk : Disk} (hmissing : disk.entry? s.path = none) (hs : List Happening)
    (hcount : hs.countP (·.isAsked) < UInt64.size - 1) :
    ((opened s disk).run s hs).live.current.Sound ∧
      ((opened s disk).run s hs).live.current.Numbered := by
  have hrow := row_run hmissing hs
  have hlen := length_deeds_le (s := s) (w := opened s disk) hs
  have hseq : ({} : Document).nextSeq.toNat = 0 := rfl
  exact ⟨hrow.sound .empty, hrow.numbered .empty (by omega)⟩

/-- A change that is made keeps the number of a module that is there before
and after it. -/
theorem installSeq_step (hw : w.Kept s) (h : Happening) {id : String} {old new : Module}
    (hold : w.live.current.get? id = some old)
    (hnew : (w.step s h).live.current.get? id = some new) : new.installSeq = old.installSeq := by
  cases h with
  | asked m fault =>
    rcases ask_cases s w m fault with ⟨next, hnext, _, hlive, _⟩ | ⟨e, _, hlive, _, _⟩
    · rw [World.step, hlive] at hnew
      by_cases hid : id = m.moduleId
      · subst hid
        have hedit := (Document.get?_next_of_some hnext hold).1
        exact (Document.edit_keeps (hedit.symm.trans hnew)).2.1
      · have hsame := (Document.get?_next_of_ne hnext hid).symm.trans hnew
        exact congrArg Module.installSeq (Option.some.inj (hsame.symm.trans hold))
    · rw [World.step, hlive] at hnew
      exact congrArg Module.installSeq (Option.some.inj (hnew.symm.trans hold))
  | reopened =>
    rw [World.step, hw.reopen.1] at hnew
    exact congrArg Module.installSeq (Option.some.inj (hnew.symm.trans hold))

/-- **A module keeps its number as long as it stays.** -/
theorem installSeq_run (hw : w.Kept s) (hs : List Happening) {id : String} {old new : Module}
    (hold : w.live.current.get? id = some old)
    (hnew : (w.run s hs).live.current.get? id = some new)
    (hstays : ∀ p, p <+: hs → ((w.run s p).live.current.get? id).isSome) :
    new.installSeq = old.installSeq := by
  induction hs generalizing w old with
  | nil => exact congrArg Module.installSeq (Option.some.inj (hnew.symm.trans hold))
  | cons h hs ih =>
    obtain ⟨mid, hmid⟩ := Option.isSome_iff_exists.mp (hstays [h] ⟨hs, rfl⟩)
    refine (ih (hw.step h) hmid hnew fun p hp => ?_).trans (installSeq_step hw h hold hmid)
    exact hstays (h :: p) (List.prefix_cons_inj h |>.mpr hp)

/-! ## The law -/

/-- What a change does that is made after others. -/
structure Made (before : List Deed) (d : Document) (m : Mutation) (d' : Document) : Prop where
  /-- No module but the one that the change names is touched. -/
  others : ∀ id, id ≠ m.moduleId → d'.get? id = d.get? id
  /-- A module that is installed again keeps its number, its scope and whether it is enabled. -/
  again : ∀ n old, m = .install n → d.get? n.id = some old →
    d'.get? n.id = some { old with entryPoints := n.entryPoints, priority := n.priority }
  /-- A module that was not there, though it may have been once, gets a number
  above all that were ever given out. -/
  anew : ∀ n, m = .install n → d.get? n.id = none →
    ∃ new, d'.get? n.id = some new ∧ ∀ k ∈ before.filterMap (·.number?), k < new.installSeq

/-- What holds of a registry in which these changes were made so far. -/
structure Lawful (s : Store) (es : List Deed) (w : World) : Prop where
  /-- Every key is its module's id, and every module is fit to be loaded. -/
  sound : w.live.current.Sound
  /-- Install numbers are distinct and lie between one and the last one given out. -/
  numbered : w.live.current.Numbered
  /-- The version is the number of changes ever made. -/
  version : w.live.current.version.toNat = es.length
  /-- The last install number is the number of times a module was put in that was not there. -/
  nextSeq : w.live.current.nextSeq.toNat = es.countP (·.fresh)
  /-- No install number was ever given out twice. -/
  rising : (es.filterMap (·.number?)).Pairwise (· < ·)
  made : ∀ m fault o, (w.ask s m fault).1 = .ok o →
    Made es w.live.current m (w.ask s m fault).2.live.current
  /-- A change that is not made leaves the document, the channel and the file as they are. -/
  failed : ∀ m fault e, (w.ask s m fault).1 = .error e →
    (w.ask s m fault).2.live = w.live ∧
      (w.ask s m fault).2.disk.entry? s.path = w.disk.entry? s.path
  /-- Opening the store again gives the same document. -/
  reopened : (opened s w.disk).live.current = w.live.current ∧ (opened s w.disk).disk = w.disk
  /-- A module keeps its number as long as it stays, whatever happens. -/
  stays : ∀ later id old new, w.live.current.get? id = some old →
    (w.run s later).live.current.get? id = some new →
    (∀ p, p <+: later → ((w.run s p).live.current.get? id).isSome) →
    new.installSeq = old.installSeq

/-- **A registry that began with nothing at its place is lawful at every
moment of its life**, as long as it was asked for fewer changes than there
are numbers. -/
theorem lawful_run (s : Store) (disk : Disk) (hs : List Happening)
    (hmissing : disk.entry? s.path = none) (hcount : hs.countP (·.isAsked) < UInt64.size - 1) :
    Lawful s ((opened s disk).deeds s hs) ((opened s disk).run s hs) := by
  have hkept := (kept_opened hmissing).1.run hs
  have hrow := row_run hmissing hs
  have hlen := length_deeds_le (s := s) (w := opened s disk) hs
  have hversion : ({} : Document).version.toNat = 0 := rfl
  have hseq : ({} : Document).nextSeq.toNat = 0 := rfl
  refine {
    sound := hrow.sound .empty
    numbered := hrow.numbered .empty (by omega)
    version := by rw [hrow.toNat_version (by omega)]; omega
    nextSeq := by rw [hrow.toNat_nextSeq (by omega)]; omega
    rising := hrow.numbers_rising (by omega)
    made := fun m fault o hanswer => ?_
    failed := fun m fault e hanswer => ?_
    reopened := hkept.reopen
    stays := fun later id old new hold hnew hstays => installSeq_run hkept later hold hnew hstays }
  · rcases ask_cases s ((opened s disk).run s hs) m fault with
      ⟨next, hnext, _, hlive, _⟩ | ⟨e, herror, _⟩
    · rw [hlive]
      refine ⟨fun id hid => Document.get?_next_of_ne hnext hid, ?_, ?_⟩
      · rintro n old rfl hold
        exact (Document.get?_next_of_some hnext hold).1
      · rintro n rfl hnone
        obtain ⟨_, hn, _, hnextSeq, hnew⟩ := Document.get?_next_of_none hnext hnone
        cases hn
        refine ⟨_, hnew, fun k hk => ?_⟩
        have hk := UInt64.le_iff_toNat_le.mp (hrow.number_le (by omega) hk)
        have hlast := hrow.toNat_nextSeq (by omega)
        have hfresh : ((opened s disk).deeds s hs).countP (·.fresh) ≤ _ := List.countP_le_length
        have hsize : UInt64.size = 2 ^ 64 := rfl
        show k < next.nextSeq
        rw [UInt64.lt_iff_toNat_lt, hnextSeq, UInt64.toNat_add, UInt64.toNat_one,
          Nat.mod_eq_of_lt (by omega)]
        omega
    · rw [herror] at hanswer
      cases hanswer
  · rcases ask_cases s ((opened s disk).run s hs) m fault with
      ⟨next, _, hok, _⟩ | ⟨e, _, hlive, hentry, _⟩
    · rw [hok] at hanswer
      cases hanswer
    · exact ⟨hlive, hentry⟩

/-- A module is installed, installed again, and taken out; the store cannot
be written once, the daemon ends once, and an unknown module is asked for. -/
theorem lawful_run_reopened :
    let s := Store.withKey ["registry.json"] "key"
    let hooks : Module := {
      id := "hooks"
      enabled := false
      entryPoints := [{ codePath := "hooks.so" }] }
    let hs : List Happening := [.asked (.install hooks) none, .asked (.enable "hooks") none,
      .asked (.setPriority "hooks" 7) (some (.io .notADirectory)), .reopened,
      .asked (.install { hooks with priority := 3 }) none, .asked (.uninstall "other") none,
      .asked (.uninstall "hooks") none]
    Disk.entry? {} s.path = none ∧ hs.countP (·.isAsked) < UInt64.size - 1 ∧
      Lawful s ((opened s {}).deeds s hs) ((opened s {}).run s hs) :=
  ⟨rfl, by decide, lawful_run _ _ _ rfl (by decide)⟩

end World

end Interpose.Registry
