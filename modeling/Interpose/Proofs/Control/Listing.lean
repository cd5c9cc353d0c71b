/-
Interpose.Proofs.Control.Listing — what is printed of a scope can be typed in again.

A label always has its user part, and a target may be typed without one; so
a text and the label of what it stands for need not be the same, but they
are read alike (`parse_line`). For this the id must be one that can be typed
at all (`ScopeTarget.Named`): any other can come into a registry by other
ways, but what is read is never such a one (`named_of_parse`). A star that
stands alone is every application, and a star with a user part is the
application of that name.

Main statement: `scope_listing_reads_back`.
-/
import Interpose.Proofs.Control.Scoped
import Interpose.Proofs.Scope
import Interpose.Proofs.Text.Cut
import Interpose.Proofs.Text.Decimal

namespace Interpose

open Registry (Document)

/-! ## Targets that can be typed -/

/-- The id of the application is not empty and has neither blanks nor slashes. -/
structure ScopeTarget.Named (t : ScopeTarget) : Prop where
  some_char : t.appId ≠ ""
  no_blank : ∀ c ∈ t.appId.toList, Text.isBlank c = false
  no_slash : '/' ∉ t.appId.toList

/-- All targets of a scope can be typed. -/
def ModuleScope.Named : ModuleScope → Prop
  | .all => True
  | .apps targets => ∀ t ∈ targets, t.Named

/-- A module with another scope; without one it is not enabled. -/
def Module.rescoped (m : Module) (s : ModuleScope) : Module :=
  { m with scope := s, enabled := m.enabled && decide (s ≠ .apps []) }

namespace Control

namespace Target

/-- A target covers what it names; the star covers everything. -/
def covers : Target → AppDescriptor → Bool
  | all, _ => true
  | app t, a => t.covers a

/-- What a listing shows for a target. -/
def line : Target → String
  | all => "*"
  | app t => label t

variable {text : String} {t : ScopeTarget} {ts : List Target}

/-! ## Labels -/

/-- The user part of a label. -/
def userText (u : Option UInt32) : List Char := u.elim ['*'] fun n => (toString n.toNat).toList

theorem toList_label (t : ScopeTarget) :
    (label t).toList = t.appId.toList ++ '/' :: userText t.userId := by
  cases hu : t.userId <;> simp [label, userText, hu]

theorem userText_ne_nil (u : Option UInt32) : userText u ≠ [] := by
  cases u with
  | none => exact List.cons_ne_nil _ _
  | some n => exact Text.toString_ne_nil _

theorem isBlank_of_mem_userText {u : Option UInt32} {c : Char} (h : c ∈ userText u) :
    Text.isBlank c = false := by
  cases u with
  | none =>
    obtain rfl := List.mem_singleton.mp h
    decide
  | some n => exact Text.isBlank_of_isDigit (Text.isDigit_of_mem_toString h)

/-- A user part is read back. -/
theorem readUser_userText (u : Option UInt32) : readUser (userText u) = .ok u := by
  cases u with
  | none => rfl
  | some n =>
    have hstar : (toString n.toNat).toList ≠ ['*'] := by
      intro heq
      have hdigit : '*'.isDigit = true :=
        Text.isDigit_of_mem_toString (heq ▸ List.mem_singleton_self _)
      cases hdigit
    rw [userText, Option.elim_some, readUser, if_neg hstar, Text.unsigned?_toString n.toNat_lt]
    simp

/-- There is nothing to trim of a label. -/
theorem trim_label (h : t.Named) : Text.trim (label t).toList = (label t).toList := by
  have hid : t.appId.toList ≠ [] := by simpa using h.some_char
  refine Text.trim_of_padded (Text.Padded.refl _) ?_ (fun c hc => ?_) fun c hc => ?_
  · rw [toList_label]
    simp
  · rw [toList_label, List.head?_append, Option.or_of_isSome (by simpa using hid)] at hc
    exact h.no_blank c (List.mem_of_mem_head? hc)
  · rw [toList_label, List.getLast?_append, List.getLast?_cons_of_ne_nil (userText_ne_nil _),
      Option.or_of_isSome (by simpa using userText_ne_nil _)] at hc
    exact isBlank_of_mem_userText (List.mem_of_mem_getLast? hc)

/-- **A label is read as the target it was printed for.** -/
theorem parse_label (h : t.Named) : parse (label t) = .ok (app t) := by
  have hstar : (label t).toList ≠ ['*'] := by
    intro heq
    have hslash : '/' ∈ (label t).toList := by
      rw [toList_label]
      simp
    rw [heq] at hslash
    exact absurd hslash (by decide)
  have hcut : Text.cutFirst? '/' (label t).toList = some (t.appId.toList, userText t.userId) :=
    Text.cutFirst?_eq_some_iff.mpr ⟨toList_label t, h.no_slash⟩
  have hname : (t.appId.toList.isEmpty || t.appId.toList.any Text.isBlank) = false := by
    simpa [h.some_char] using h.no_blank
  simp only [parse, read, trim_label h, if_neg hstar, hcut, hname, Bool.false_eq_true, if_false,
    Option.elim_some, readUser_userText, Except.map, String.ofList_toList]

/-! ## Reading -/

/-- A name that passes the check, and has no slash, can be typed. -/
theorem named_of_checked {name : List Char} {user : Except TargetFault (Option UInt32)}
    {why : TargetFault} (hslash : '/' ∉ name)
    (h : (if name.isEmpty || name.any Text.isBlank then .error why
      else user.map fun userId => app { appId := String.ofList name, userId }) = .ok (app t)) :
    t.Named := by
  split at h
  next => cases h
  next hname =>
    cases user with
    | error e => cases h
    | ok u =>
      cases h
      refine ⟨?_, ?_, by rwa [String.toList_ofList]⟩ <;> simp_all

/-- **What is read can be typed**, even if it was typed in another way. -/
theorem named_of_parse (h : parse text = .ok (app t)) : t.Named := by
  rw [parse, read] at h
  dsimp only at h
  split at h
  next => cases h
  next =>
    cases hcut : Text.cutFirst? '/' (Text.trim text.toList) with
    | none =>
      rw [hcut] at h
      exact named_of_checked (Text.cutFirst?_eq_none_iff.mp hcut) h
    | some p =>
      rw [hcut] at h
      exact named_of_checked (Text.cutFirst?_eq_some_iff.mp hcut).2 h

/-- **What a listing shows for a target is read as that target.** -/
theorem parse_line {t : Target} (h : parse text = .ok t) : parse t.line = .ok t := by
  cases t with
  | all => rfl
  | app t => exact parse_label (named_of_parse h)

/-! ## Folding -/

theorem mapM_parse_labels {targets : List ScopeTarget} (h : ∀ t ∈ targets, t.Named) :
    (targets.map label).mapM parse = .ok (targets.map app) := by
  induction targets with
  | nil => rfl
  | cons t targets ih =>
    obtain ⟨ht, htargets⟩ := List.forall_mem_cons.mp h
    rw [List.map_cons, List.mapM_cons, parse_label ht, ih htargets]
    rfl

/-- Targets of which none is the star are kept, all of them and in their order. -/
theorem scopeOf_map_app (targets : List ScopeTarget) : scopeOf (targets.map app) = { targets } := by
  have hnone : (targets.map app).contains all = false := by simp
  rw [scopeOf, hnone, List.filterMap_map]
  exact congrArg (WireScope.mk false) List.filterMap_some

/-- **A folded scope covers what one of the targets covers.** -/
theorem covers_scopeOf (ts : List Target) (a : AppDescriptor) :
    (scopeOf ts).covers a = true ↔ ∃ t ∈ ts, t.covers a = true := by
  rw [scopeOf]
  split
  next hall => exact iff_of_true rfl ⟨all, by simpa using hall, rfl⟩
  next hnot =>
    have happ : ∀ t ∈ ts, t ≠ all := fun t ht heq => hnot (by simpa using heq ▸ ht)
    simp only [WireScope.covers, Bool.false_or, List.any_eq_true, List.mem_filterMap]
    constructor
    · rintro ⟨t, ⟨_ | _, ht, heq⟩, hcovers⟩
      · cases heq
      · cases heq
        exact ⟨_, ht, hcovers⟩
    · rintro ⟨t, ht, hcovers⟩
      cases t with
      | all => exact absurd rfl (happ _ ht)
      | app t => exact ⟨t, ⟨_, ht, rfl⟩, hcovers⟩

end Target

/-! ## A whole listing -/

/-- What the lines of a scope are read as. -/
def targetsOf (w : WireScope) : List Target :=
  (if w.allApps then [.all] else []) ++ w.targets.map .app

theorem mapM_parse_scopeLines {w : WireScope} (h : ∀ t ∈ w.targets, t.Named) :
    (scopeLines w).mapM Target.parse = .ok (targetsOf w) := by
  have hlabels := Target.mapM_parse_labels h
  cases hall : w.allApps with
  | false =>
    simp only [scopeLines, targetsOf, hall, Bool.false_eq_true, if_false, List.nil_append]
    exact hlabels
  | true =>
    have hstar : Target.parse "*" = .ok .all := rfl
    simp only [scopeLines, targetsOf, hall, if_true, List.singleton_append, List.mapM_cons, hstar,
      hlabels]
    rfl

/-- A scope that is folded from its own lines is the same to the registry. -/
theorem ofWire_scopeOf_targetsOf (w : WireScope) :
    ModuleScope.ofWire (Target.scopeOf (targetsOf w)) = .ofWire w := by
  cases hall : w.allApps with
  | false =>
    have hlist : targetsOf w = w.targets.map .app := by simp [targetsOf, hall]
    rw [hlist, Target.scopeOf_map_app, ModuleScope.ofWire_of_targets rfl,
      ModuleScope.ofWire_of_targets hall]
  | true =>
    have hstar : (targetsOf w).contains .all = true := by simp [targetsOf, hall]
    rw [Target.scopeOf, if_pos hstar, ModuleScope.ofWire_of_allApps rfl,
      ModuleScope.ofWire_of_allApps hall]

theorem targets_named {s : ModuleScope} (h : s.Named) : ∀ t ∈ s.toWire.targets, t.Named := by
  cases s with
  | all => exact fun _ ht => nomatch ht
  | apps targets => exact h

/-! ## The two commands -/

variable (desk : Desk Daemon) {id : String} {m old : Module}

theorem listScope_ok (hkeyed : ∀ id m, desk.behind.registry.current.get? id = some m → m.id = id)
    (hget : desk.behind.registry.current.get? id = some m) :
    (listScope Daemon.manager id).perform desk
      = (.ok (), { desk with lines := desk.lines ++ scopeLines m.scope.toWire }) := by
  have hfind : find? desk.behind.getRegistry.modules id = some m.toInfo :=
    (find?_toInfo hkeyed id).trans (congrArg (Option.map Module.toInfo) hget)
  rw [listScope, Act.perform_bind_ok (listing_ok desk)]
  simp only [hfind]
  exact Act.perform_forM_print _ desk

/-- **The scope of a module is edited**, and the module disabled if nothing is left of it. -/
theorem setScope_ok (mode : ScopeMode) (ts : List Target) (hid : id ≠ "")
    (hold : desk.behind.registry.current.get? id = some old)
    (hwrites : Daemon.Writes none desk.behind) :
    ∃ done, (setScope Daemon.manager mode id ts).perform desk = (.ok (), done) ∧
      Changed desk.behind done.behind id
        (old.rescoped (old.scope.edit mode (.ofWire (Target.scopeOf ts)))) := by
  generalize hgiven : ModuleScope.ofWire (Target.scopeOf ts) = given
  have hmutation := (mutationOf_setScope id mode (Target.scopeOf ts)).trans
    (neededId_map_eq_ok.mpr ⟨hid, rfl⟩)
  rw [hgiven] at hmutation
  obtain ⟨d, hcall, hedited⟩ := change_edit desk hmutation hold rfl (by simp) hwrites
  rw [setScope]
  dsimp only
  rw [Act.perform_bind_ok (Act.perform_blaming_ok hcall), Option.any_some]
  split
  next hexposed =>
    obtain ⟨hon, hempty⟩ := Bool.and_eq_true_iff.mp hexposed
    rw [hasNoScope_toInfo] at hempty
    obtain ⟨d', hcall', hdisabled⟩ := change_switch { desk with behind := d }
      (.disable { moduleId := id }) false hid rfl hedited.there hedited.writes
    rw [Act.perform_bind_ok (Act.perform_blaming_ok hcall')]
    refine ⟨_, Act.perform_print _ _, ?_⟩
    have hnew : old.rescoped (old.scope.edit mode given)
        = { old with scope := old.scope.edit mode given, enabled := false } := by
      simp [Module.rescoped, show old.scope.edit mode given = .apps [] from hempty]
    rw [hnew]
    exact hedited.trans hdisabled
  next hkept =>
    refine ⟨_, Act.perform_print _ _, ?_⟩
    have hnew : old.rescoped (old.scope.edit mode given)
        = { old with scope := old.scope.edit mode given } := by
      rw [Bool.and_eq_true, hasNoScope_toInfo, not_and] at hkept
      cases hon : old.enabled with
      | false => simp [Module.rescoped, hon]
      | true => simp [Module.rescoped, hon, show old.scope.edit mode given ≠ .apps [] from hkept hon]
    rw [hnew]
    exact hedited

/-! ## From one command to the other -/

/-- A listing of the scope is read as these targets, and they make any other scope this one. -/
structure ReadBack (s : ModuleScope) (ts : List Target) : Prop where
  read : (scopeLines s.toWire).mapM Target.parse = .ok ts
  replaced : ∀ old : ModuleScope, old.edit .replace (.ofWire (Target.scopeOf ts)) = s
  /-- The lines are what is printed for a module with this scope. -/
  listed : ∀ (desk : Desk Daemon) (endpoint id : String) (m : Module),
    (∀ id m, desk.behind.registry.current.get? id = some m → m.id = id) →
    desk.behind.registry.current.get? id = some m → m.scope = s →
    ((Command.scopeList id).run Daemon.manager endpoint).perform desk
      = (.ok (), { desk with lines := desk.lines ++ scopeLines s.toWire })
  /-- The targets give a module this scope, whatever it had. -/
  set : ∀ (desk : Desk Daemon) (endpoint id : String) (old : Module), id ≠ "" →
    desk.behind.registry.current.get? id = some old → Daemon.Writes none desk.behind →
    ∃ done, ((Command.scopeSet true false false id ts).run Daemon.manager endpoint).perform desk
        = (.ok (), done) ∧
      Changed desk.behind done.behind id (old.rescoped s)

theorem readBack_targetsOf {s : ModuleScope} (h : s.Named) : ReadBack s (targetsOf s.toWire) := by
  have hfolded : ModuleScope.ofWire (Target.scopeOf (targetsOf s.toWire)) = s :=
    (ofWire_scopeOf_targetsOf s.toWire).trans s.ofWire_toWire
  refine ⟨mapM_parse_scopeLines (targets_named h), fun old => hfolded, ?_, ?_⟩
  · rintro desk endpoint id m hkeyed hget rfl
    exact listScope_ok desk hkeyed hget
  · intro desk endpoint id old hid hold hwrites
    have hset := setScope_ok desk .replace (targetsOf s.toWire) hid hold hwrites
    rwa [hfolded] at hset

/-- **What is printed of a scope can be typed in again.** Of a text that is read
as a target, the label is read as that target too. The lines of a scope whose
ids can be typed are all read, and give just that scope wherever they are put
in the place of another one: all applications or else the same targets, in
their order and each as often as it stood there. And whatever targets are
typed in, the scope they fold to covers what one of them covers. -/
theorem scope_listing_reads_back :
    (∀ text t, Target.parse text = .ok t → Target.parse t.line = .ok t) ∧
    (∀ s : ModuleScope, s.Named → ∃ ts, ReadBack s ts) ∧
    ∀ ts app, (ModuleScope.ofWire (Target.scopeOf ts)).covers app = true ↔
      ∃ t ∈ ts, t.covers app = true := by
  refine ⟨fun text t => Target.parse_line, fun s h => ⟨_, readBack_targetsOf h⟩, fun ts app => ?_⟩
  rw [ModuleScope.covers_ofWire]
  exact Target.covers_scopeOf ts app

/-- An application of the name `*` stands twice in a scope, and is none of the stars that
mean more. -/
theorem scope_listing_reads_back_star :
    let s := ModuleScope.apps
      [{ appId := "*" }, { appId := "app", userId := some 10 }, { appId := "*" }]
    let hooks : Module := { id := "hooks", enabled := true, scope := s, entryPoints := [] }
    let desk : Desk Daemon := {
      behind := unsaved { version := 1, nextSeq := 1, modules := Keyed.empty.insert "hooks" hooks } }
    s.Named ∧ Target.parse " */* " = .ok (.app { appId := "*" }) ∧
      Target.parse "*/*" = .ok (.app { appId := "*" }) ∧
      ((Command.scopeList "hooks").run Daemon.manager "").perform desk
        = (.ok (), { desk with lines := ["*/*", "app/10", "*/*"] }) ∧
      ∃ ts, ReadBack s ts := by
  intro s hooks desk
  have hblank : ∀ id : String, id.toList.any Text.isBlank = false →
      ∀ c ∈ id.toList, Text.isBlank c = false :=
    fun id h c hc => Bool.eq_false_iff.mpr (List.any_eq_false.mp h c hc)
  have hnamed : s.Named := by
    intro t ht
    simp only [List.mem_cons, List.not_mem_nil, or_false] at ht
    rcases ht with rfl | rfl | rfl <;> exact ⟨by decide, hblank _ (by decide), by decide⟩
  have hkeyed : ∀ id m, desk.behind.registry.current.get? id = some m → m.id = id := by
    intro id m hm
    have hm : (Keyed.empty.insert "hooks" hooks).get? id = some m := hm
    rw [Keyed.get?_insert] at hm
    split at hm
    next hid => exact Option.some.inj hm ▸ hid.symm
    next => exact nomatch hm
  obtain ⟨ts, hback⟩ := scope_listing_reads_back.2.1 s hnamed
  have hlisted := hback.listed desk "" "hooks" hooks hkeyed rfl rfl
  have hlines : scopeLines s.toWire = ["*/*", "app/10", "*/*"] := by decide +kernel
  rw [hlines] at hlisted
  exact ⟨hnamed, rfl, scope_listing_reads_back.1 " */* " _ rfl, hlisted, ts, hback⟩

end Control

end Interpose
