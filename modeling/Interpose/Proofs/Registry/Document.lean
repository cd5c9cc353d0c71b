/-
Interpose.Proofs.Registry.Document — what changes do to the registry, one and many.

A change that is made concerns one module: it puts it in, changes it, or
takes it out, and all other modules stay as they are (`next_cases`,
`get?_next_of_ne`); it is known beforehand whether it is made
(`next_isOk`). From this come the two things that hold of every
document: its modules stand under their own ids and are fit to be loaded
(`Sound`), and their install numbers are their own (`Numbered`).

Changes that follow one another make a row (`Row`). A row counts itself:
the version tells how many changes there were, the last install number how
many of them put a module in that was not there, and the numbers given out
follow one another (`Row.version`, `Row.numbers`).
-/
import Interpose.Registry.Mutation
import Interpose.Proofs.Keyed

namespace Interpose.Registry

/-! ## Fit modules -/

/-- A module that can be installed. -/
structure Fit (m : Module) : Prop where
  id_not_blank : Text.allBlank m.id.toList = false
  some_entry_point : m.entryPoints ≠ []
  no_blank_path : ∀ e ∈ m.entryPoints, Text.allBlank e.codePath.toList = false

theorem unfit?_eq_none {m : Module} : unfit? m = none ↔ Fit m := by
  rw [unfit?]
  constructor
  · intro h
    split at h
    · cases h
    · split at h
      · cases h
      · split at h
        · cases h
        · rename_i hid hentries hpaths
          exact ⟨by simpa using hid, by simpa using hentries, by simpa using hpaths⟩
  · rintro ⟨hid, hentries, hpaths⟩
    rw [if_neg (by simp [hid]), if_neg (by simpa using hentries), if_neg (by simpa using hpaths)]

/-! ## One change -/

/-- What a change makes of a module that is there; nothing if it takes it out. -/
def Mutation.edit (old : Module) : Mutation → Option Module
  | .install m => some { old with entryPoints := m.entryPoints, priority := m.priority }
  | .uninstall _ => none
  | .enable _ => some { old with enabled := true }
  | .disable _ => some { old with enabled := false }
  | .setScope _ mode scope => some { old with scope := old.scope.edit mode scope }
  | .setPriority _ priority => some { old with priority }

namespace Document

variable {d d' : Document} {m : Mutation}

/-- The modules with one of them changed or taken out. -/
def put (d : Document) (id : String) : Option Module → Keyed Module
  | some m => d.modules.insert id m
  | none => d.modules.erase id

/-- **What a change can do**: put a fit module in that was not there, or make
of a module that is there what the change says. -/
theorem next_cases (h : d.next m = .ok d') :
    (∃ n, m = .install n ∧ Fit n ∧ d.get? n.id = none ∧
      d' = { version := d.version + 1, nextSeq := d.nextSeq + 1,
             modules := d.modules.insert n.id { n with installSeq := d.nextSeq + 1 } }) ∨
    (∃ old, d.get? m.moduleId = some old ∧ (∀ n, m = .install n → Fit n) ∧
      d' = { d with version := d.version + 1, modules := d.put m.moduleId (m.edit old) }) := by
  have hadjust : ∀ {id : String} {f : Module → Module},
      m.moduleId = id → (∀ n, m ≠ .install n) → (∀ old, m.edit old = some (f old)) →
      d.change m = d.adjust id f → ∃ old, d.get? m.moduleId = some old ∧
        (∀ n, m = .install n → Fit n) ∧
        d' = { d with version := d.version + 1, modules := d.put m.moduleId (m.edit old) } := by
    intro id f hid hnot hedit hchange
    rw [next, hchange, adjust] at h
    cases hget : d.get? id with
    | none => simp [hget, Except.map] at h
    | some old =>
      rw [hget] at h
      refine ⟨old, by rw [hid, hget], fun n hn => absurd hn (hnot n), ?_⟩
      rw [hid, hedit]
      exact (Except.ok.inj h).symm
  cases m with
  | install n =>
    rw [next, change] at h
    cases hunfit : unfit? n with
    | some why => simp [hunfit, Except.map] at h
    | none =>
      have hfit := unfit?_eq_none.mp hunfit
      rw [hunfit] at h
      have h := (Except.ok.inj h).symm
      rw [install] at h
      cases hget : d.get? n.id with
      | none =>
        rw [hget] at h
        exact .inl ⟨n, rfl, hfit, hget, h⟩
      | some old =>
        rw [hget] at h
        refine .inr ⟨old, hget, fun k hk => ?_, h⟩
        cases hk
        exact hfit
  | uninstall id =>
    rw [next, change] at h
    cases hget : d.get? id with
    | none => simp [hget, Except.map] at h
    | some old =>
      rw [hget] at h
      exact .inr ⟨old, hget, (by simp), (Except.ok.inj h).symm⟩
  | enable id => exact .inr (hadjust rfl (by simp) (fun _ => rfl) rfl)
  | disable id => exact .inr (hadjust rfl (by simp) (fun _ => rfl) rfl)
  | setScope id mode scope => exact .inr (hadjust rfl (by simp) (fun _ => rfl) rfl)
  | setPriority id priority => exact .inr (hadjust rfl (by simp) (fun _ => rfl) rfl)

/-- **Why a change is not made**: a module is unfit to be installed, or the
module that is to be changed is not there. -/
theorem next_error_cases {why : Refusal} (h : d.next m = .error why) :
    (∃ n unfit, m = .install n ∧ ¬ Fit n ∧ why = .invalid n.id unfit) ∨
    ((∀ n, m ≠ .install n) ∧ d.get? m.moduleId = none ∧ why = .unknownModule m.moduleId) := by
  have hadjust : ∀ {id : String} {f : Module → Module}, m.moduleId = id → d.change m = d.adjust id f →
      d.get? m.moduleId = none ∧ why = .unknownModule m.moduleId := by
    rintro id f rfl hchange
    rw [next, hchange, adjust] at h
    cases hget : d.get? m.moduleId with
    | none =>
      rw [hget] at h
      exact ⟨rfl, (Except.error.inj h).symm⟩
    | some old => simp [hget, Except.map] at h
  cases m with
  | install n =>
    rw [next, change] at h
    cases hunfit : unfit? n with
    | none => simp [hunfit, Except.map] at h
    | some unfit =>
      rw [hunfit] at h
      refine .inl ⟨n, unfit, rfl, fun hfit => ?_, (Except.error.inj h).symm⟩
      rw [unfit?_eq_none.mpr hfit] at hunfit
      cases hunfit
  | uninstall id =>
    rw [next, change] at h
    cases hget : d.get? id with
    | none =>
      rw [hget] at h
      exact .inr ⟨by simp, hget, (Except.error.inj h).symm⟩
    | some old => simp [hget, Except.map] at h
  | enable id => exact .inr ⟨by simp, hadjust rfl rfl⟩
  | disable id => exact .inr ⟨by simp, hadjust rfl rfl⟩
  | setScope id mode scope => exact .inr ⟨by simp, hadjust rfl rfl⟩
  | setPriority id priority => exact .inr ⟨by simp, hadjust rfl rfl⟩

/-- **A change is made of what is fit to be installed and of what is there.** -/
theorem next_isOk : (∃ d', d.next m = .ok d') ↔
    (∀ n, m = .install n → Fit n) ∧ ((∀ n, m ≠ .install n) → d.get? m.moduleId ≠ none) := by
  constructor
  · rintro ⟨d', h⟩
    rcases next_cases h with ⟨n, rfl, hfit, _, _⟩ | ⟨old, hold, hfit, _⟩
    · exact ⟨fun k hk => Mutation.install.inj hk ▸ hfit, fun hnot => absurd rfl (hnot n)⟩
    · exact ⟨hfit, fun _ => by simp [hold]⟩
  · rintro ⟨hfit, hthere⟩
    cases h : d.next m with
    | ok d' => exact ⟨d', rfl⟩
    | error why =>
      rcases next_error_cases h with ⟨n, _, hm, hunfit, _⟩ | ⟨hnot, hnone, _⟩
      · exact absurd (hfit n hm) hunfit
      · exact absurd hnone (hthere hnot)

theorem get?_put (d : Document) (id a : String) (o : Option Module) :
    (d.put id o).get? a = if a = id then o else d.get? a := by
  cases o with
  | some m => exact Keyed.get?_insert d.modules id a m
  | none => exact Keyed.get?_erase d.modules id a

theorem version_next (h : d.next m = .ok d') : d'.version = d.version + 1 := by
  rcases next_cases h with ⟨n, rfl, _, _, rfl⟩ | ⟨old, _, _, rfl⟩ <;> rfl

/-- **Every other module stays as it is.** -/
theorem get?_next_of_ne (h : d.next m = .ok d') {id : String} (hne : id ≠ m.moduleId) :
    d'.get? id = d.get? id := by
  rcases next_cases h with ⟨n, rfl, _, _, rfl⟩ | ⟨old, _, _, rfl⟩
  · exact (Keyed.get?_insert ..).trans (if_neg hne)
  · exact (get?_put ..).trans (if_neg hne)

/-- A module that is there becomes what the change says. -/
theorem get?_next_of_some (h : d.next m = .ok d') {old : Module}
    (hold : d.get? m.moduleId = some old) :
    d'.get? m.moduleId = m.edit old ∧ d'.nextSeq = d.nextSeq := by
  rcases next_cases h with ⟨n, rfl, _, hnone, rfl⟩ | ⟨old', hold', _, rfl⟩
  · rw [show d.get? (Mutation.install n).moduleId = none from hnone] at hold
    cases hold
  · cases hold'.symm.trans hold
    exact ⟨(get?_put ..).trans (if_pos rfl), rfl⟩

/-- Only an install makes something of a module that is not there, and gives
it the next number. -/
theorem get?_next_of_none (h : d.next m = .ok d') (hnone : d.get? m.moduleId = none) :
    ∃ n, m = .install n ∧ Fit n ∧ d'.nextSeq = d.nextSeq + 1 ∧
      d'.get? n.id = some { n with installSeq := d'.nextSeq } := by
  rcases next_cases h with ⟨n, rfl, hfit, _, rfl⟩ | ⟨old, hold, _, rfl⟩
  · exact ⟨n, rfl, hfit, rfl, (Keyed.get?_insert ..).trans (if_pos rfl)⟩
  · rw [hnone] at hold
    cases hold

/-! ## What holds of every document -/

/-- Every module stands under its own id and is fit to be loaded. -/
structure Sound (d : Document) : Prop where
  keyed : ∀ id n, d.get? id = some n → n.id = id
  fit : ∀ id n, d.get? id = some n → Fit n

/-- The install numbers have been given out, each to one module. -/
structure Numbered (d : Document) : Prop where
  positive : ∀ id n, d.get? id = some n → 1 ≤ n.installSeq
  issued : ∀ id n, d.get? id = some n → n.installSeq ≤ d.nextSeq
  distinct : ∀ a b m n, d.get? a = some m → d.get? b = some n →
    m.installSeq = n.installSeq → a = b

theorem Sound.empty : Sound {} := ⟨fun _ _ h => (nomatch h), fun _ _ h => (nomatch h)⟩

theorem Numbered.empty : Numbered {} :=
  ⟨fun _ _ h => (nomatch h), fun _ _ h => (nomatch h), fun _ _ _ _ h => (nomatch h)⟩

/-- An edit keeps the id and the number, and fit modules fit. -/
theorem edit_keeps {old new : Module} (h : m.edit old = some new) :
    new.id = old.id ∧ new.installSeq = old.installSeq ∧
      ((∀ n, m = .install n → Fit n) → Fit old → Fit new) := by
  cases m with
  | install n =>
    cases h
    refine ⟨rfl, rfl, fun hfit hold => ?_⟩
    exact ⟨hold.id_not_blank, (hfit n rfl).some_entry_point, (hfit n rfl).no_blank_path⟩
  | uninstall id => cases h
  | enable _ | disable _ | setScope _ _ _ | setPriority _ _ =>
    cases h
    exact ⟨rfl, rfl, fun _ hold => ⟨hold.id_not_blank, hold.some_entry_point, hold.no_blank_path⟩⟩

/-- Whatever stands in the next document stood there before, or was put in,
or is what was made of a module that stood there. -/
theorem get?_next_eq_some (h : d.next m = .ok d') {id : String} {new : Module}
    (hnew : d'.get? id = some new) :
    d.get? id = some new ∨
    (∃ n, m = .install n ∧ id = n.id ∧ Fit n ∧ d'.nextSeq = d.nextSeq + 1 ∧
      new = { n with installSeq := d.nextSeq + 1 }) ∨
    (∃ old, d.get? id = some old ∧ m.edit old = some new ∧ ∀ n, m = .install n → Fit n) := by
  by_cases hid : id = m.moduleId
  · subst hid
    rcases next_cases h with ⟨n, rfl, hfit, _, rfl⟩ | ⟨old, hold, hfit, rfl⟩
    · have hget : (d.modules.insert n.id { n with installSeq := d.nextSeq + 1 }).get? n.id
          = some new := hnew
      rw [Keyed.get?_insert, if_pos rfl] at hget
      cases hget
      exact .inr (.inl ⟨n, rfl, rfl, hfit, rfl, rfl⟩)
    · have hget : (d.put m.moduleId (m.edit old)).get? m.moduleId = some new := hnew
      rw [get?_put, if_pos rfl] at hget
      exact .inr (.inr ⟨old, hold, hget, hfit⟩)
  · rw [get?_next_of_ne h hid] at hnew
    exact .inl hnew

/-- A change leaves modules under their own ids. -/
theorem keyed_next (hd : ∀ id n, d.get? id = some n → n.id = id) (h : d.next m = .ok d') :
    ∀ id n, d'.get? id = some n → n.id = id := by
  intro id new hnew
  rcases get?_next_eq_some h hnew with hold | ⟨n, _, rfl, _, _, rfl⟩ | ⟨old, hold, hedit, _⟩
  · exact hd id new hold
  · rfl
  · exact (edit_keeps hedit).1.trans (hd id old hold)

theorem Sound.next (hd : d.Sound) (h : d.next m = .ok d') : d'.Sound := by
  refine ⟨keyed_next hd.keyed h, fun id new hnew => ?_⟩
  rcases get?_next_eq_some h hnew with hold | ⟨n, _, _, hfit, _, rfl⟩ | ⟨old, hold, hedit, hfit⟩
  · exact hd.fit id new hold
  · exact ⟨hfit.id_not_blank, hfit.some_entry_point, hfit.no_blank_path⟩
  · exact (edit_keeps hedit).2.2 hfit (hd.fit id old hold)

/-- The last number given out never falls while there is a next one. -/
theorem nextSeq_le_next (h : d.next m = .ok d') (hroom : d.nextSeq.toNat + 1 < UInt64.size) :
    d.nextSeq ≤ d'.nextSeq := by
  rw [UInt64.le_iff_toNat_le]
  rcases next_cases h with ⟨n, _, _, _, rfl⟩ | ⟨old, _, _, rfl⟩
  · show _ ≤ (d.nextSeq + 1).toNat
    rw [UInt64.toNat_add, UInt64.toNat_one, Nat.mod_eq_of_lt hroom]
    omega
  · exact Nat.le_refl _

/-- **Numbers stay with their modules, and a new one is above all others**, as
long as there is a next number. -/
theorem Numbered.next (hd : d.Numbered) (h : d.next m = .ok d')
    (hroom : d.nextSeq.toNat + 1 < UInt64.size) : d'.Numbered := by
  have hle := nextSeq_le_next h hroom
  -- a module's number is an old one of its own, or it is the one number after all old ones
  have hcases : ∀ id new, d'.get? id = some new →
      (∃ old, d.get? id = some old ∧ new.installSeq = old.installSeq) ∨
        (id = m.moduleId ∧ new.installSeq = d.nextSeq + 1 ∧ d'.nextSeq = d.nextSeq + 1) := by
    intro id new hnew
    rcases get?_next_eq_some h hnew with hold | ⟨n, rfl, rfl, _, hseq, rfl⟩ | ⟨old, hold, hedit, _⟩
    · exact .inl ⟨new, hold, rfl⟩
    · exact .inr ⟨rfl, rfl, hseq⟩
    · exact .inl ⟨old, hold, (edit_keeps hedit).2.1⟩
  have habove : ∀ id old, d.get? id = some old → old.installSeq < d.nextSeq + 1 := by
    intro id old hold
    have := UInt64.le_iff_toNat_le.mp (hd.issued id old hold)
    rw [UInt64.lt_iff_toNat_lt, UInt64.toNat_add, UInt64.toNat_one, Nat.mod_eq_of_lt hroom]
    omega
  refine ⟨fun id new hnew => ?_, fun id new hnew => ?_, fun a b m₁ m₂ h₁ h₂ heq => ?_⟩
  · rcases hcases id new hnew with ⟨old, hold, hseq⟩ | ⟨_, hseq, _⟩
    · exact hseq ▸ hd.positive id old hold
    · rw [hseq, UInt64.le_iff_toNat_le, UInt64.toNat_add, UInt64.toNat_one, Nat.mod_eq_of_lt hroom]
      omega
  · rcases hcases id new hnew with ⟨old, hold, hseq⟩ | ⟨_, hseq, hnext⟩
    · exact hseq ▸ UInt64.le_trans (hd.issued id old hold) hle
    · rw [hseq, hnext]
      exact UInt64.le_refl _
  · rcases hcases a m₁ h₁ with ⟨old₁, hold₁, hseq₁⟩ | ⟨ha, hseq₁, _⟩
    · rcases hcases b m₂ h₂ with ⟨old₂, hold₂, hseq₂⟩ | ⟨_, hseq₂, _⟩
      · exact hd.distinct a b old₁ old₂ hold₁ hold₂ (hseq₁.symm.trans (heq.trans hseq₂))
      · have hlt := habove a old₁ hold₁
        rw [← hseq₁, heq, hseq₂] at hlt
        exact absurd hlt (UInt64.lt_irrefl _)
    · rcases hcases b m₂ h₂ with ⟨old₂, hold₂, hseq₂⟩ | ⟨hb, _, _⟩
      · have hlt := habove b old₂ hold₂
        rw [← hseq₂, ← heq, hseq₁] at hlt
        exact absurd hlt (UInt64.lt_irrefl _)
      · exact ha.trans hb.symm

/-! ## Changes in a row -/

/-- The document after some changes, made one after another. -/
def after (d : Document) (ms : List Mutation) : Except Refusal Document :=
  ms.foldlM next d

variable {ms : List Mutation}

theorem after_cons : d.after (m :: ms) = .ok d' ↔
    ∃ d₁, d.next m = .ok d₁ ∧ d₁.after ms = .ok d' := by
  rw [after, List.foldlM_cons]
  cases d.next m with
  | error why => simp [bind, Except.bind]
  | ok d₁ => exact ⟨fun h => ⟨d₁, rfl, h⟩, fun ⟨_, heq, h⟩ => Except.ok.inj heq ▸ h⟩

theorem after_append {ms' : List Mutation} : d.after (ms ++ ms') = .ok d' ↔
    ∃ d₁, d.after ms = .ok d₁ ∧ d₁.after ms' = .ok d' := by
  rw [after, List.foldlM_append, ← after]
  cases d.after ms with
  | error why => simp [bind, Except.bind]
  | ok d₁ => exact ⟨fun h => ⟨d₁, rfl, h⟩, fun ⟨_, heq, h⟩ => Except.ok.inj heq ▸ h⟩

end Document

/-- A change that was made: what was there before and after. -/
structure Deed where
  before : Document
  mutation : Mutation
  after : Document

namespace Deed

/-- Whether the change put a module in that was not there. -/
def fresh (e : Deed) : Bool :=
  match e.mutation with
  | .install m => (e.before.get? m.id).isNone
  | _ => false

/-- The install number the change gave out, if it gave one out. -/
def number? (e : Deed) : Option UInt64 :=
  if e.fresh then (e.after.get? e.mutation.moduleId).map (·.installSeq) else none

end Deed

/-- Changes that led from one document to another. -/
inductive Row (d : Document) : List Deed → Document → Prop
  | nil : Row d [] d
  | snoc {es : List Deed} {d₁ d₂ : Document} {m : Mutation} (row : Row d es d₁)
      (next : d₁.next m = .ok d₂) : Row d (es ++ [⟨d₁, m, d₂⟩]) d₂

namespace Row

variable {d d' : Document} {es : List Deed}

theorem append {es' : List Deed} {d'' : Document} (h : Row d es d') (h' : Row d' es' d'') :
    Row d (es ++ es') d'' := by
  induction h' with
  | nil => rwa [List.append_nil]
  | snoc _ next ih => rw [← List.append_assoc]; exact .snoc ih next

theorem after_eq (h : Row d es d') : d.after (es.map (·.mutation)) = .ok d' := by
  induction h with
  | nil => rfl
  | snoc row next ih =>
    rw [Document.after] at ih ⊢
    rw [List.map_append, List.foldlM_append, ih]
    show List.foldlM Document.next _ [_] = _
    rw [List.foldlM_cons, next]
    rfl

/-- Changes that can be made one after another make a row. -/
theorem of_after {ms : List Mutation} (h : d.after ms = .ok d') :
    ∃ es, Row d es d' ∧ es.map (·.mutation) = ms := by
  induction ms generalizing d with
  | nil =>
    cases h
    exact ⟨[], .nil, rfl⟩
  | cons m ms ih =>
    obtain ⟨d₁, hnext, h⟩ := Document.after_cons.mp h
    obtain ⟨es, hrow, hes⟩ := ih h
    exact ⟨⟨d, m, d₁⟩ :: es, (Row.snoc .nil hnext).append hrow, congrArg (m :: ·) hes⟩

theorem sound (h : Row d es d') (hd : d.Sound) : d'.Sound := by
  induction h with
  | nil => exact hd
  | snoc row next ih => exact ih.next next

/-- **The version counts the changes.** -/
theorem version (h : Row d es d') : d'.version = d.version + UInt64.ofNat es.length := by
  induction h with
  | nil => simp
  | snoc row next ih =>
    rw [Document.version_next next, ih, List.length_append, List.length_singleton,
      UInt64.ofNat_add, UInt64.add_assoc]
    rfl

/-- The versions that the changes made follow one another. -/
theorem versions (h : Row d es d') : es.map (·.after.version)
    = (List.range es.length).map fun k => d.version + UInt64.ofNat (k + 1) := by
  induction h with
  | nil => rfl
  | @snoc es d₁ d₂ m row next ih =>
    have hlast : d₂.version = d.version + UInt64.ofNat (es.length + 1) := by
      rw [(row.snoc next).version, List.length_append, List.length_singleton]
    rw [List.map_append, ih, List.length_append, List.length_singleton, List.range_succ,
      List.map_append, List.map_singleton, List.map_singleton, hlast]

/-- A change gives out a number when it puts a module in that was not there. -/
theorem nextSeq_deed {m : Mutation} (h : d.next m = .ok d') :
    d'.nextSeq = d.nextSeq + (if Deed.fresh ⟨d, m, d'⟩ then 1 else 0) ∧
      Deed.number? ⟨d, m, d'⟩ = if Deed.fresh ⟨d, m, d'⟩ then some (d.nextSeq + 1) else none := by
  cases hget : d.get? m.moduleId with
  | none =>
    obtain ⟨n, rfl, _, hseq, hnew⟩ := Document.get?_next_of_none h hget
    have hfresh : Deed.fresh ⟨d, .install n, d'⟩ = true := by
      show (d.get? n.id).isNone = true
      rw [show d.get? n.id = none from hget]
      rfl
    rw [if_pos hfresh, if_pos hfresh, Deed.number?, if_pos hfresh]
    refine ⟨hseq, ?_⟩
    show (d'.get? n.id).map (·.installSeq) = _
    rw [hnew, Option.map_some, hseq]
  | some old =>
    have hold : Deed.fresh ⟨d, m, d'⟩ = false := by
      cases m with
      | install n =>
        show (d.get? n.id).isNone = false
        rw [show d.get? n.id = some old from hget]
        rfl
      | _ => rfl
    rw [if_neg (by simp [hold]), if_neg (by simp [hold]), Deed.number?, if_neg (by simp [hold])]
    exact ⟨(Document.get?_next_of_some h hget).2.trans (UInt64.add_zero _).symm, rfl⟩

/-- **The last number given out counts the changes that gave one out**, and
these follow one another. -/
theorem numbers (h : Row d es d') :
    d'.nextSeq = d.nextSeq + UInt64.ofNat (es.countP (·.fresh)) ∧
      es.filterMap (·.number?)
        = (List.range (es.countP (·.fresh))).map fun i => d.nextSeq + UInt64.ofNat (i + 1) := by
  induction h with
  | nil => simp
  | @snoc es d₁ d₂ m row next ih =>
    obtain ⟨hseq, hnumber⟩ := nextSeq_deed next
    rw [List.countP_append, List.filterMap_append, ih.2, hseq, ih.1]
    by_cases hfresh : Deed.fresh ⟨d₁, m, d₂⟩ = true
    · rw [if_pos hfresh] at hnumber ⊢
      simp [hfresh, hnumber, List.range_succ, UInt64.add_assoc, ih.1]
    · rw [if_neg hfresh] at hnumber ⊢
      simp [hfresh, hnumber]

/-! ### As long as there is a next number -/

theorem toNat_add_ofNat {a : UInt64} {n : Nat} (hroom : a.toNat + n < UInt64.size) :
    (a + UInt64.ofNat n).toNat = a.toNat + n := by
  have hsize : UInt64.size = 2 ^ 64 := rfl
  rw [UInt64.toNat_add, UInt64.toNat_ofNat', Nat.add_mod_mod, Nat.mod_eq_of_lt (by omega)]

theorem toNat_version (h : Row d es d') (hroom : d.version.toNat + es.length < UInt64.size) :
    d'.version.toNat = d.version.toNat + es.length := by
  rw [h.version, toNat_add_ofNat hroom]

theorem toNat_nextSeq (h : Row d es d') (hroom : d.nextSeq.toNat + es.length < UInt64.size) :
    d'.nextSeq.toNat = d.nextSeq.toNat + es.countP (·.fresh) := by
  have hle : es.countP (·.fresh) ≤ es.length := List.countP_le_length
  rw [h.numbers.1, toNat_add_ofNat (by omega)]

/-- **Every change has a version of its own, above those of the changes before.** -/
theorem versions_rising (h : Row d es d') (hroom : d.version.toNat + es.length < UInt64.size) :
    (es.map (·.after.version)).Pairwise (· < ·) := by
  rw [h.versions, List.pairwise_map]
  refine List.pairwise_lt_range.imp_of_mem fun {i j} hi hj hij => ?_
  rw [List.mem_range] at hi hj
  rw [UInt64.lt_iff_toNat_lt, toNat_add_ofNat (by omega), toNat_add_ofNat (by omega)]
  omega

theorem numbered (h : Row d es d') (hd : d.Numbered)
    (hroom : d.nextSeq.toNat + es.length < UInt64.size) : d'.Numbered := by
  induction h with
  | nil => exact hd
  | @snoc es d₁ d₂ m row next ih =>
    rw [List.length_append, List.length_singleton] at hroom
    have hseq := row.toNat_nextSeq (by omega)
    have hle : es.countP (·.fresh) ≤ es.length := List.countP_le_length
    exact (ih (by omega)).next next (by omega)

/-- **Every number given out is above all that were given out before.** -/
theorem numbers_rising (h : Row d es d') (hroom : d.nextSeq.toNat + es.length < UInt64.size) :
    (es.filterMap (·.number?)).Pairwise (· < ·) := by
  have hle : es.countP (·.fresh) ≤ es.length := List.countP_le_length
  rw [h.numbers.2, List.pairwise_map]
  refine List.pairwise_lt_range.imp_of_mem fun {i j} hi hj hij => ?_
  rw [List.mem_range] at hi hj
  rw [UInt64.lt_iff_toNat_lt, toNat_add_ofNat (by omega), toNat_add_ofNat (by omega)]
  omega

/-- The numbers given out so far are not above the last one. -/
theorem number_le (h : Row d es d') (hroom : d.nextSeq.toNat + es.length < UInt64.size)
    {k : UInt64} (hk : k ∈ es.filterMap (·.number?)) : k ≤ d'.nextSeq := by
  have hle : es.countP (·.fresh) ≤ es.length := List.countP_le_length
  rw [h.numbers.2] at hk
  obtain ⟨i, hi, rfl⟩ := List.mem_map.mp hk
  rw [List.mem_range] at hi
  rw [UInt64.le_iff_toNat_le, h.toNat_nextSeq hroom, toNat_add_ofNat (by omega)]
  omega

end Row

end Interpose.Registry
