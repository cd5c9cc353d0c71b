/-
Interpose.Proofs.Apply.Isolation — a module that fails might as well not have come.

Modules are applied to a process, and those that did not fail are applied
to its twin. The first process sees more: layers that come and go again,
forms that are left, handles that are used up. But a module that fails
takes its lines with it (`rolled_back`), and what is left is a twin of the
second. So every module that does not fail finds twins, does the same in
both, and leaves twins behind.

`Course` is what the two runs have in common. `isolated` follows them
module by module, by induction on the list. At the end twins dispatch
every method alike (`Host.dispatch_congr`): not only are the outcomes the same,
the code that runs is.

Main statement: `apply_isolates`.
-/
import Mathlib
import Interpose.Proofs.Apply.Accounts
import Interpose.Proofs.Apply.Reached
import Interpose.Proofs.Apply.Twins
import Interpose.Proofs.Module.Order

namespace Interpose

variable {ν σ : Type}

/-! ## Entry points -/

/-- An entry point that cannot be loaded, or whose callback does not read handles. -/
def Loaded.Tame : Loaded ν → Prop
  | .ready init => init.Blind
  | .refused _ => True
  | .panicked _ => False

/-- An entry point whose callback, if it comes to that, does not read handles. -/
def Loaded.Blind : Loaded ν → Prop
  | .ready init => init.Blind
  | .refused _ | .panicked _ => True

theorem Loaded.Tame.blind {l : Loaded ν} (h : l.Tame) : l.Blind := by
  cases l with
  | ready init => exact h
  | refused _ => trivial
  | panicked _ => trivial

namespace Site

variable {elsewhere : MethodId → Option (Body ν)} {s t u v : Site ν}

/-- The same site before anything was recorded. -/
def fresh (s : Site ν) : Site ν := { s with record := {} }

/-- A site whose record goes on where another left off. -/
def after (u : Site ν) (r : InitRecord) : Site ν :=
  { u with record := {
      installed := r.installed ++ u.record.installed
      diagnostics := r.diagnostics ++ u.record.diagnostics } }

theorem Grown.after {moduleId : String} (h : Grown moduleId elsewhere s.fresh u) :
    Grown moduleId elsewhere s (u.after s.record) where
  sound := h.sound
  methods := h.methods
  bodies := h.bodies
  lines := by
    obtain ⟨new, hlines, hhandles, hown⟩ := h.lines
    exact ⟨new, hlines, congrArg (s.record.installed ++ ·) hhandles, hown⟩

theorem Twins.fresh (T : Twins elsewhere s t) : Twins elsewhere s.fresh t.fresh :=
  { T with diagnostics := rfl, installed := rfl }

/-- A callback begins a record of its own, which is then added to the module's. -/
theorem Both.after {moduleId : String} (T : Twins elsewhere s t)
    (h : Both moduleId elsewhere s.fresh t.fresh u v) :
    Both moduleId elsewhere s t (u.after s.record) (v.after t.record) where
  twins := { h.twins with
    diagnostics := by
      show t.record.diagnostics ++ v.record.diagnostics
        = s.record.diagnostics ++ u.record.diagnostics
      rw [T.diagnostics, h.twins.diagnostics]
    installed := by
      show (t.record.installed ++ v.record.installed).length
        = (s.record.installed ++ u.record.installed).length
      rw [List.length_append, List.length_append, T.installed, h.twins.installed] }
  left := h.left.after
  right := h.right.after

/-- Entry point by entry point, twins stay twins. -/
theorem runEntries_twins (ctx : HookContext) (loader : Loader ν) (es : List EntryPoint)
    (hblind : ∀ e ∈ es, (loader e).Blind) (T : Twins elsewhere s t) (a b : σ) :
    ∃ ended u v,
      Host.runEntries ctx loader.source es s.record a s.host
        = some (((ended, u.record), a), u.host) ∧
      Host.runEntries ctx loader.source es t.record b t.host
        = some (((ended, v.record), b), v.host) ∧
      Both ctx.moduleId elsewhere s t u v := by
  induction es generalizing s t with
  | nil => exact ⟨.completed, s, t, rfl, rfl, .refl T⟩
  | cons e es ih =>
    have he := hblind e List.mem_cons_self
    unfold Host.runEntries Loader.source
    cases hload : loader e with
    | refused err =>
      exact ⟨.failed (.load e.codePath err), s, t, rfl, rfl, .refl T⟩
    | panicked message =>
      exact ⟨.unwound message, s, t, rfl, rfl, .refl T⟩
    | ready init =>
      rw [hload] at he
      obtain ⟨ended, u, v, hu, hv, hboth⟩ :=
        run_twins ctx (Host.enter Host.callDepth) init he T.fresh
      have hu' : ctx.run (Host.enter Host.callDepth) init {} s.host
          = some ((ended, u.record), u.host) := hu
      have hv' : ctx.run (Host.enter Host.callDepth) init {} t.host
          = some ((ended, v.record), v.host) := hv
      have hboth' := hboth.after T
      dsimp only
      rw [hu', hv', Option.bind_some, Option.bind_some]
      cases ended with
      | completed =>
        obtain ⟨ended, x, y, hx, hy, hboth''⟩ :=
          ih (fun e' he' => hblind e' (List.mem_cons_of_mem e he')) hboth'.twins
        exact ⟨ended, x, y, hx, hy, hboth'.trans hboth''⟩
      | failed chain =>
        exact ⟨.failed (.init chain), _, _, rfl, rfl, hboth'⟩
      | panicked message =>
        exact ⟨.failed (.panic message), _, _, rfl, rfl, hboth'⟩

/-! ## One module -/

/-- **A module's own lines go as they came**: what is left looks as it did
before the first of them. -/
theorem rolled_back {moduleId : String} (k : s.host.Sound s.ledger elsewhere)
    (hfresh : s.record.installed = []) (h : Grown moduleId elsewhere s u) :
    ∃ L, (u.host.removeAll u.record.installed).2.Sound L elsewhere ∧
      L.lines = s.ledger.lines ∧ L.bodies = s.ledger.bodies ∧
      Host.SameMethods s.host (u.host.removeAll u.record.installed).2 := by
  obtain ⟨new, hlines, hhandles, _⟩ := h.lines
  rw [hfresh, List.nil_append] at hhandles
  obtain ⟨elsewhere', hsound, hundone⟩ := h.sound.removeAll u.record.installed
  have hleft : (u.ledger.removeAll u.record.installed).lines = s.ledger.lines := by
    have hnumbered := h.sound.numbered
    rw [Ledger.Numbered, hlines] at hnumbered
    have hapart := (List.pairwise_append.mp hnumbered).2.2
    rw [Ledger.removeAll, hlines, hhandles, List.filter_append]
    have hold : s.ledger.lines.filter (·.handle ∉ new.map (·.handle)) = s.ledger.lines := by
      apply List.filter_eq_self.mpr
      intro a ha
      refine decide_eq_true fun hmem => ?_
      obtain ⟨b, hb, heq⟩ := List.mem_map.mp hmem
      exact absurd (congrArg HookHandle.raw heq.symm) (Nat.ne_of_lt (hapart a ha b hb))
    have hnew : new.filter (·.handle ∉ new.map (·.handle)) = [] := by
      apply List.filter_eq_nil_iff.mpr
      intro a ha hne
      exact of_decide_eq_true hne (List.mem_map.mpr ⟨a, ha, rfl⟩)
    rw [hold, hnew, List.append_nil]
  have helse : elsewhere' = elsewhere := by
    funext a
    rcases hundone a with heq | ⟨hnone, hnil⟩
    · exact heq
    · have hchain : s.ledger.chain a = [] := by
        rw [Ledger.chain, ← hleft]
        exact hnil
      rw [hnone, k.unhooked a ((k.slot?_eq_none_iff a).mpr hchain)]
  rw [helse] at hsound
  exact ⟨_, hsound, hleft, h.bodies,
    h.methods.trans (u.host.hooksOnly_removeAll _).sameMethods⟩

/-- A module is dropped in both of two twins, or applied in both, or a load
of it panics past both. -/
theorem applyModule_twins (loader : Loader ν) (app : AppDescriptor) (m : ModuleInfo)
    (hblind : ∀ e ∈ m.entryPoints, (loader e).Blind) (T : Twins elsewhere s.fresh t.fresh)
    (a b : σ) :
    ∃ u v, Both m.moduleId elsewhere s.fresh t.fresh u v ∧
      ((∃ why, Host.applyModule loader.source app m a s.host
            = some ((.dropped why, a), (u.host.removeAll u.record.installed).2) ∧
          Host.applyModule loader.source app m b t.host
            = some ((.dropped why, b), (v.host.removeAll v.record.installed).2)) ∨
        (Host.applyModule loader.source app m a s.host
            = some ((.applied u.record.installed u.record.diagnostics, a), u.host) ∧
          Host.applyModule loader.source app m b t.host
            = some ((.applied v.record.installed v.record.diagnostics, b), v.host)) ∨
        ∃ message, Host.applyModule loader.source app m a s.host
            = some ((.unwound message, a), u.host) ∧
          Host.applyModule loader.source app m b t.host
            = some ((.unwound message, b), v.host)) := by
  unfold Host.applyModule
  by_cases hempty : m.entryPoints.isEmpty = true
  · rw [if_pos hempty, if_pos hempty]
    exact ⟨s.fresh, t.fresh, .refl T, .inl ⟨.noEntryPoints, rfl, rfl⟩⟩
  · rw [if_neg hempty, if_neg hempty]
    obtain ⟨ended, u, v, hu, hv, hboth⟩ :=
      runEntries_twins { moduleId := m.moduleId, priority := m.priority, app } loader
        m.entryPoints hblind T a b
    have hu' : Host.runEntries { moduleId := m.moduleId, priority := m.priority, app }
        loader.source m.entryPoints {} a s.host = some (((ended, u.record), a), u.host) := hu
    have hv' : Host.runEntries { moduleId := m.moduleId, priority := m.priority, app }
        loader.source m.entryPoints {} b t.host = some (((ended, v.record), b), v.host) := hv
    refine ⟨u, v, hboth, ?_⟩
    dsimp only
    rw [hu', hv']
    cases ended with
    | completed => exact .inr (.inl ⟨rfl, rfl⟩)
    | failed why => exact .inl ⟨why, rfl, rfl⟩
    | unwound message => exact .inr (.inr ⟨message, rfl, rfl⟩)

end Site

/-! ## A list of modules -/

/-- What applying a list of modules and applying those of them that do not
fail have in common. -/
structure Course where
  /-- The modules that were applied, with the handles of their layers. -/
  applied : List AppliedModule
  /-- The same modules with the handles that they get without the others. -/
  again : List AppliedModule
  failed : List ModuleDiagnostic
  diagnostics : List ModuleDiagnostic

namespace Course

def names (c : Course) : List String := c.applied.map (·.moduleId)

def failedNames (c : Course) : List String := c.failed.map (·.moduleId)

/-- Whatever session and report they start from, the two runs take this
course: one from a site through all the modules, the other from its twin
through those that do not fail. -/
structure Isolates (c : Course) (loader : Loader ν) (app : AppDescriptor)
    (elsewhere : MethodId → Option (Body ν)) (ms : List ModuleInfo) (s t u v : Site ν) :
    Prop where
  left : ∀ session r, session.app = app → (∀ m ∈ ms, session.isApplied m.moduleId = false) →
    (∀ m ∈ ms, m.moduleId ∉ session.failed) →
    Host.applyEach loader.source ms session r () s.host
      = some (((.report {
          applied := r.applied ++ c.names
          failed := r.failed ++ c.failed
          diagnostics := r.diagnostics ++ c.diagnostics },
        { session with
          applied := session.applied ++ c.applied
          failed := session.failed ++ c.failedNames }), ()), u.host)
  right : ∀ session r, session.app = app → (∀ m ∈ ms, session.isApplied m.moduleId = false) →
    Host.applyEach loader.source (ms.filter (·.moduleId ∉ c.failedNames)) session r () t.host
      = some (((.report {
          applied := r.applied ++ c.names
          failed := r.failed
          diagnostics := r.diagnostics ++ c.diagnostics },
        { session with applied := session.applied ++ c.again }), ()), v.host)
  /-- Every module is applied or fails, and none does both. -/
  perm : (c.names ++ c.failedNames).Perm (ms.map (·.moduleId))
  reasons : ∀ d ∈ c.failed, ∃ why : ModuleFailure,
    d.diagnostic = Diagnostic.of .moduleLoadFailure why.detail
  twins : Site.Twins elsewhere u v
  /-- What lines there are stood there before or belong to a module that was applied. -/
  owned : ∀ l ∈ u.ledger.lines, l ∈ s.ledger.lines ∨ l.moduleId ∈ c.names

variable {c : Course} {loader : Loader ν} {app : AppDescriptor}
variable {elsewhere : MethodId → Option (Body ν)} {ms : List ModuleInfo} {m : ModuleInfo}
variable {s t u v x y : Site ν}

theorem isolates_nil (T : Site.Twins elsewhere s.fresh t.fresh) :
    Isolates { applied := [], again := [], failed := [], diagnostics := [] } loader app elsewhere
      [] s t s.fresh t.fresh where
  left := by
    intro session r _ _ _
    simp only [Host.applyEach, names, failedNames, List.map_nil, List.append_nil]
    rfl
  right := by
    intro session r _ _
    simp only [Host.applyEach, names, List.filter_nil, List.map_nil, List.append_nil]
    rfl
  perm := .nil
  reasons := fun _ hd => absurd hd List.not_mem_nil
  twins := T
  owned := fun _ hl => .inl hl

/-- Only modules of the list fail. -/
theorem Isolates.not_mem_failedNames (h : c.Isolates loader app elsewhere ms s t u v)
    (hnew : m.moduleId ∉ ms.map (·.moduleId)) : m.moduleId ∉ c.failedNames :=
  fun hmem => hnew (h.perm.subset (List.mem_append_right _ hmem))

theorem isApplied_pushApplied (session : ProcessSession) (a : AppliedModule) (id : String) :
    (session.pushApplied a).isApplied id = (session.isApplied id || a.moduleId == id) := by
  simp [ProcessSession.isApplied, ProcessSession.pushApplied]

/-- After one more module, the others still have to come. -/
theorem isApplied_rest {session : ProcessSession} {a : AppliedModule} (ha : a.moduleId = m.moduleId)
    (hnew : m.moduleId ∉ ms.map (·.moduleId))
    (hfresh : ∀ n ∈ m :: ms, session.isApplied n.moduleId = false) :
    ∀ n ∈ ms, (session.pushApplied a).isApplied n.moduleId = false := by
  intro n hn
  have hne : a.moduleId ≠ n.moduleId :=
    fun heq => hnew (List.mem_map.mpr ⟨n, hn, heq.symm.trans ha⟩)
  rw [isApplied_pushApplied, hfresh n (List.mem_cons_of_mem m hn), beq_eq_false_iff_ne.mpr hne]
  rfl

/-- A module that is applied comes first in both runs. -/
theorem Isolates.applied {hs hs' : List HookHandle} {ds : List Diagnostic}
    (h : c.Isolates loader app elsewhere ms x y u v)
    (hnew : m.moduleId ∉ ms.map (·.moduleId))
    (hx : Host.applyModule loader.source app m () s.host = some ((.applied hs ds, ()), x.host))
    (hy : Host.applyModule loader.source app m () t.host = some ((.applied hs' ds, ()), y.host))
    (hlines : ∀ l ∈ x.ledger.lines, l ∈ s.ledger.lines ∨ l.moduleId = m.moduleId) :
    Isolates {
        applied := { moduleId := m.moduleId, priority := m.priority, handles := hs } :: c.applied
        again := { moduleId := m.moduleId, priority := m.priority, handles := hs' } :: c.again
        failed := c.failed
        diagnostics := ds.map ({ moduleId := m.moduleId, diagnostic := · }) ++ c.diagnostics }
      loader app elsewhere (m :: ms) s t u v where
  left := by
    intro session r happ hfresh hfailed
    subst happ
    rw [Host.applyEach, hfresh m List.mem_cons_self, if_neg Bool.false_ne_true, hx,
      Option.bind_some]
    refine (h.left (session.pushApplied ⟨m.moduleId, m.priority, hs⟩) _ rfl
      (isApplied_rest rfl hnew hfresh)
      fun n hn => hfailed n (List.mem_cons_of_mem m hn)).trans ?_
    simp only [ProcessSession.pushApplied, names, failedNames, List.map_cons, List.append_assoc,
      List.singleton_append]
  right := by
    intro session r happ hfresh
    subst happ
    have hkept : (m :: ms).filter (·.moduleId ∉ c.failedNames)
        = m :: ms.filter (·.moduleId ∉ c.failedNames) :=
      List.filter_cons_of_pos (decide_eq_true (h.not_mem_failedNames hnew))
    show Host.applyEach loader.source ((m :: ms).filter (·.moduleId ∉ c.failedNames)) session r ()
      t.host = _
    rw [hkept, Host.applyEach, hfresh m List.mem_cons_self, if_neg Bool.false_ne_true, hy,
      Option.bind_some]
    refine (h.right (session.pushApplied ⟨m.moduleId, m.priority, hs'⟩) _ rfl
      (isApplied_rest rfl hnew hfresh)).trans ?_
    simp only [ProcessSession.pushApplied, names, List.map_cons, List.append_assoc,
      List.singleton_append]
  perm := List.Perm.cons _ h.perm
  reasons := h.reasons
  twins := h.twins
  owned := by
    intro l hl
    rcases h.owned l hl with hl | hl
    · rcases hlines l hl with hl | hown
      · exact .inl hl
      · exact .inr (hown ▸ List.mem_cons_self)
    · exact .inr (List.mem_cons_of_mem _ hl)

/-- A module that is dropped is in one run only, and leaves no line there. -/
theorem Isolates.dropped {why : ModuleFailure} (h : c.Isolates loader app elsewhere ms x t u v)
    (hnew : m.moduleId ∉ ms.map (·.moduleId))
    (hx : Host.applyModule loader.source app m () s.host = some ((.dropped why, ()), x.host))
    (hlines : x.ledger.lines = s.ledger.lines) :
    Isolates { c with failed :=
        { moduleId := m.moduleId, diagnostic := Diagnostic.of .moduleLoadFailure why.detail }
          :: c.failed }
      loader app elsewhere (m :: ms) s t u v where
  left := by
    intro session r happ hfresh hfailed
    subst happ
    have hpush : session.pushFailed m.moduleId
        = { session with failed := session.failed ++ [m.moduleId] } := by
      have hnot : session.failed.contains m.moduleId = false := by
        rw [List.contains_eq_mem]
        exact decide_eq_false (hfailed m List.mem_cons_self)
      rw [ProcessSession.pushFailed, hnot, if_neg Bool.false_ne_true]
    have hothers : ∀ n ∈ ms, n.moduleId ∉ session.failed ++ [m.moduleId] := by
      intro n hn hmem
      rcases List.mem_append.mp hmem with hmem | hmem
      · exact hfailed n (List.mem_cons_of_mem m hn) hmem
      · exact hnew (List.mem_map.mpr ⟨n, hn, List.mem_singleton.mp hmem⟩)
    rw [Host.applyEach, hfresh m List.mem_cons_self, if_neg Bool.false_ne_true, hpush, hx,
      Option.bind_some]
    refine (h.left { session with failed := session.failed ++ [m.moduleId] } _ rfl
      (fun n hn => hfresh n (List.mem_cons_of_mem m hn)) hothers).trans ?_
    simp only [names, failedNames, List.map_cons, List.append_assoc, List.singleton_append]
  right := by
    intro session r happ hfresh
    have hgone : (m :: ms).filter (·.moduleId ∉ m.moduleId :: c.failedNames)
        = ms.filter (·.moduleId ∉ c.failedNames) := by
      rw [List.filter_cons_of_neg (by simp)]
      apply List.filter_congr
      intro n hn
      have hne : n.moduleId ≠ m.moduleId := fun heq => hnew (List.mem_map.mpr ⟨n, hn, heq⟩)
      simp [hne]
    show Host.applyEach loader.source
      ((m :: ms).filter (·.moduleId ∉ m.moduleId :: c.failedNames)) session r () t.host = _
    rw [hgone]
    exact h.right _ _ happ fun n hn => hfresh n (List.mem_cons_of_mem m hn)
  perm := List.perm_middle.trans (List.Perm.cons _ h.perm)
  reasons := by
    intro d hd
    rcases List.mem_cons.mp hd with rfl | hd
    · exact ⟨why, rfl⟩
    · exact h.reasons d hd
  twins := h.twins
  owned := by
    intro l hl
    rw [← hlines]
    exact h.owned l hl

/-- **Every list of modules takes such a course.** -/
theorem isolated (loader : Loader ν) (app : AppDescriptor) (ms : List ModuleInfo)
    (hdistinct : (ms.map (·.moduleId)).Nodup)
    (htame : ∀ m ∈ ms, ∀ e ∈ m.entryPoints, (loader e).Tame)
    (T : Site.Twins elsewhere s.fresh t.fresh) :
    ∃ c u v, Isolates c loader app elsewhere ms s t u v := by
  induction ms generalizing s t with
  | nil => exact ⟨_, s.fresh, t.fresh, isolates_nil T⟩
  | cons m ms ih =>
    obtain ⟨hnew, hdistinct⟩ := List.nodup_cons.mp hdistinct
    have htame' : ∀ n ∈ ms, ∀ e ∈ n.entryPoints, (loader e).Tame :=
      fun n hn => htame n (List.mem_cons_of_mem m hn)
    have htame_m := htame m List.mem_cons_self
    obtain ⟨x, y, hboth, hends⟩ :=
      Site.applyModule_twins loader app m (fun e he => (htame_m e he).blind) T () ()
    rcases hends with ⟨why, hx, -⟩ | ⟨hx, hy⟩ | ⟨message, hx, -⟩
    · obtain ⟨L, hsound, hlines, hbodies, hmethods⟩ := Site.rolled_back T.left rfl hboth.left
      have T' : Site.Twins elsewhere
          ⟨(x.host.removeAll x.record.installed).2, L, {}⟩ t.fresh :=
        ⟨hsound, T.right, hmethods.symm.trans T.methods, T.bodies.trans hbodies.symm,
          T.faces.trans (congrArg _ hlines.symm), rfl, rfl⟩
      obtain ⟨c, u, v, hc⟩ := ih hdistinct htame'
        (s := ⟨(x.host.removeAll x.record.installed).2, L, {}⟩) T'
      exact ⟨_, u, v, hc.dropped hnew hx hlines⟩
    · obtain ⟨c, u, v, hc⟩ := ih hdistinct htame' hboth.twins.fresh
      rw [hboth.twins.diagnostics] at hy
      obtain ⟨new, hlines, _, hown⟩ := hboth.left.lines
      refine ⟨_, u, v, hc.applied hnew hx hy ?_⟩
      intro l hl
      rw [hlines] at hl
      rcases List.mem_append.mp hl with hl | hl
      · exact .inl hl
      · exact .inr (hown l hl)
    · obtain ⟨e, he, hload⟩ := (Host.applyModule_unwinds hx).panics
      have htame_e := htame_m e he
      rw [hload] at htame_e
      exact htame_e.elim

end Course

/-! ## What is dispatched -/

namespace Host

/-- What an entry does when it is run, in this process or in another. -/
def denote (p : Host ν) : Entry ν → Enter ν → Call → Host ν → Ran ν Outcome
  | .body b, enter, c, q => exec enter (b c) () q
  | .dispatcher s, enter, c, q =>
    match p.slots[s]? with
    | some slot => descend enter slot.method slot.base c.this slot.layers c.args q
    | none => none

theorem enter_succ_eq_denote (depth : Nat) (x : Entry ν) (c : Call) (p : Host ν) :
    enter (depth + 1) x c p = p.denote x (enter depth) c p := by
  cases x <;> rfl

/-- How a method is dispatched: the code that its entry stands for. -/
def dispatch (p : Host ν) (m : MethodId) : Option (Enter ν → Call → Host ν → Ran ν Outcome) :=
  (p.method? m).map fun x => p.denote x.entry

/-- Layers that look alike run alike. -/
theorem descend_faces (e : Enter ν) (m : MethodId) (base : Entry ν) (this : Option Value)
    {ls ls' : List (Layer ν)} (h : ls.map Layer.face = ls'.map Layer.face) :
    descend e m base this ls = descend e m base this ls' := by
  induction ls generalizing ls' with
  | nil =>
    cases ls' with
    | nil => rfl
    | cons l' rest' => cases h
  | cons l rest ih =>
    cases ls' with
    | nil => cases h
    | cons l' rest' =>
      obtain ⟨hface, hrest⟩ := List.cons.inj h
      have hhook : l.hook = l'.hook := congrArg Face.hook hface
      have hmodule : l.moduleId = l'.moduleId := congrArg Face.moduleId hface
      have hlen : rest.length = rest'.length := by
        rw [← List.length_map Layer.face, hrest, List.length_map]
      funext args p
      rw [descend, descend, hhook, hmodule, hlen, ih hrest]

/-- **Where ledgers look alike, every method is dispatched alike.** -/
theorem dispatch_congr {p q : Host ν} {L M : Ledger ν} {elsewhere : MethodId → Option (Body ν)}
    (k : p.Sound L elsewhere) (k' : q.Sound M elsewhere) (hbodies : M.bodies = L.bodies)
    (hfaces : M.lines.map Line.face = L.lines.map Line.face) (m : MethodId) :
    q.dispatch m = p.dispatch m := by
  have hchain := Ledger.chain_faces k.timed k'.timed hfaces m
  have hdispatch : ∀ r : Host ν,
      r.dispatch m = ((r.method? m).map (·.entry)).map r.denote := fun r => by
    rw [Option.map_map]
    rfl
  rw [hdispatch, hdispatch, k.entries, k'.entries, Ledger.body?, hbodies, ← Ledger.body?]
  cases hb : L.body? m with
  | none => rfl
  | some b =>
    rw [Option.map_some, Option.map_some, Option.map_some, Option.map_some]
    cases hs : p.table.slot? m with
    | none =>
      have hs' : q.table.slot? m = none := by
        rw [k'.slot?_eq_none_iff, ← List.map_eq_nil_iff (f := Line.face), hchain,
          (k.slot?_eq_none_iff m).mp hs]
        rfl
      rw [hs']
      rfl
    | some s =>
      cases hs' : q.table.slot? m with
      | none =>
        have hnil := (k'.slot?_eq_none_iff m).mp hs'
        rw [hnil, List.map_nil, eq_comm, List.map_eq_nil_iff, ← k.slot?_eq_none_iff, hs] at hchain
        cases hchain
      | some s' =>
        cases elsewhere m with
        | some b' => rfl
        | none =>
          obtain ⟨b₁, hb₁, hslot⟩ := k.slots m s hs
          obtain ⟨b₂, hb₂, hslot'⟩ := k'.slots m s' hs'
          rw [Ledger.body?, hbodies, ← Ledger.body?, hb₁] at hb₂
          cases hb₂
          have hlayers : ((M.chain m).map Line.layer).map Layer.face
              = ((L.chain m).map Line.layer).map Layer.face := by
            rw [List.map_map, List.map_map]
            exact hchain
          congr 1
          funext e c r
          show denote q (.dispatcher s') e c r = denote p (.dispatcher s) e c r
          rw [denote, denote, hslot, hslot']
          dsimp only
          rw [descend_faces e m (.body b₁) c.this hlayers]

end Host

/-! ## Isolation -/

/-- Whatever modules are in a process, taking those that fail out of the
list changes neither the report nor the process, as far as anybody can see
who does not read handles: every method has the same layers and is
dispatched to the same code. -/
theorem apply_isolates {p : Host ν} (hreached : p.Reached) (hentered : p.appEntered = false)
    (loader : Loader ν) (modules : List ModuleInfo)
    (hdistinct : (modules.map (·.moduleId)).Nodup)
    (htame : ∀ m ∈ modules, ∀ e ∈ m.entryPoints, (loader e).Tame)
    (session : ProcessSession) (happlied : session.applied = []) (hfailed : session.failed = []) :
    ∃ report after q, p.apply loader modules session = some ((.report report, after), q) ∧
      (report.applied ++ report.failed.map (·.moduleId)).Perm (modules.map (·.moduleId)) ∧
      (∀ d ∈ report.failed, ∃ why : ModuleFailure,
        d.diagnostic = Diagnostic.of .moduleLoadFailure why.detail) ∧
      after.moduleIds = report.applied ∧ after.failed = report.failed.map (·.moduleId) ∧
      (∀ m, ∀ l ∈ q.layers m, l ∈ p.layers m ∨ l.moduleId ∈ report.applied) ∧
      ∃ report' after' q',
        p.apply loader (modules.filter (·.moduleId ∉ report.failed.map (·.moduleId))) session
          = some ((.report report', after'), q') ∧
        report'.applied = report.applied ∧ report'.diagnostics = report.diagnostics ∧
        report'.failed = [] ∧
        (∀ m, (q'.layers m).map Layer.face = (q.layers m).map Layer.face) ∧
        ∀ m, q'.dispatch m = q.dispatch m := by
  obtain ⟨L, elsewhere, k⟩ := hreached.orderly
  have hperm := List.mergeSort_perm modules ModuleInfo.before
  have hids := hperm.map ModuleInfo.moduleId
  obtain ⟨c, u, v, hc⟩ := Course.isolated (s := ⟨p, L, {}⟩) (t := ⟨p, L, {}⟩) loader session.app
    (ModuleInfo.inOrder modules) (hids.nodup_iff.mpr hdistinct)
    (fun m hm => htame m (hperm.subset hm)) (Site.Twins.refl k)
  have hnew : ∀ m ∈ ModuleInfo.inOrder modules, session.isApplied m.moduleId = false := by
    intro m _
    rw [ProcessSession.isApplied, happlied]
    rfl
  have hleft := hc.left session {} rfl hnew fun m _ => by
    rw [hfailed]
    exact List.not_mem_nil
  have hright := hc.right session {} rfl hnew
  rw [ModuleInfo.inOrder_filter] at hright
  have hrun : p.apply loader modules session
      = some ((.report {
          applied := c.names, failed := c.failed, diagnostics := c.diagnostics },
        { session with
          applied := session.applied ++ c.applied
          failed := session.failed ++ c.failedNames }), u.host) := by
    rw [Host.apply, Host.applyFrom, hentered, if_neg Bool.false_ne_true, hleft]
    rfl
  have hrun' : p.apply loader (modules.filter (·.moduleId ∉ c.failedNames)) session
      = some ((.report { applied := c.names, diagnostics := c.diagnostics },
        { session with applied := session.applied ++ c.again }), v.host) := by
    rw [Host.apply, Host.applyFrom, hentered, if_neg Bool.false_ne_true, hright]
    rfl
  refine ⟨_, _, _, hrun, hc.perm.trans hids, hc.reasons, ?_, ?_, ?_,
    _, _, _, hrun', rfl, rfl, rfl, ?_, ?_⟩
  · rw [ProcessSession.moduleIds, happlied]
    rfl
  · rw [hfailed]
    rfl
  · intro m l hl
    rw [hc.twins.left.layers] at hl
    rw [k.layers]
    obtain ⟨line, hline, rfl⟩ := List.mem_map.mp hl
    obtain ⟨hmem, hm⟩ := Ledger.mem_chain.mp hline
    rcases hc.owned line hmem with hold | hown
    · exact .inl (List.mem_map.mpr ⟨line, Ledger.mem_chain.mpr ⟨hold, hm⟩, rfl⟩)
    · exact .inr hown
  · intro m
    rw [hc.twins.left.layers, hc.twins.right.layers, List.map_map, List.map_map]
    exact Ledger.chain_faces hc.twins.left.timed hc.twins.right.timed hc.twins.faces m
  · intro m
    exact Host.dispatch_congr hc.twins.left hc.twins.right hc.twins.bodies hc.twins.faces m

/-- One module hooks a method and panics, the other hooks it and is done:
the first one fails, and no layer but the second one's is left. -/
theorem apply_isolates_panicking :
    let p : Host Unit := {
      methods := [{
        info := { id := ⟨1⟩, className := "A", name := "f" }
        entry := .body fun _ => .finish (.ok .null) }] }
    let loader : Loader Unit := fun e =>
      .ready (.hookMethod ⟨1⟩ { run := fun v => .proceed v.call.args .finish } fun _ =>
        .finish (if e.codePath = "bad" then .panicked none else .completed))
    let modules : List ModuleInfo := [
      { moduleId := "bad", priority := 1, entryPoints := [{ codePath := "bad" }] },
      { moduleId := "good", entryPoints := [{ codePath := "good" }] }]
    ∃ report after q, p.apply loader modules { pid := 1, app := {} }
        = some ((.report report, after), q) ∧
      report.failed.map (·.moduleId) = ["bad"] ∧ ∀ m, ∀ l ∈ q.layers m, l.moduleId = "good" := by
  intro p loader modules
  have hreached : p.Reached := by
    refine .untouched ⟨rfl, rfl, fun x hx => ?_⟩ fun _ => rfl
    cases List.mem_singleton.mp hx
    exact ⟨_, rfl⟩
  have htame : ∀ m ∈ modules, ∀ e ∈ m.entryPoints, (loader e).Tame :=
    fun _ _ _ _ => ⟨fun _ _ _ => rfl, fun _ => trivial⟩
  obtain ⟨report, after, q, hrun, _, _, _, _, howned, _⟩ :=
    apply_isolates hreached rfl loader modules (by decide) htame { pid := 1, app := {} } rfl rfl
  have heval : (p.apply loader modules { pid := 1, app := {} }).map (·.1.1)
      = some (.report {
          applied := ["good"]
          failed := [{
            moduleId := "bad"
            diagnostic := Diagnostic.of .moduleLoadFailure
              "init panicked: non-string panic payload" }] }) := by
    cbv
  rw [hrun] at heval
  cases heval
  refine ⟨_, after, q, hrun, rfl, ?_⟩
  intro m l hl
  rcases howned m l hl with hold | happlied
  · exact absurd hold List.not_mem_nil
  · exact List.mem_singleton.mp happlied

end Interpose
