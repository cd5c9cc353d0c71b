/-
Interpose.Proofs.Apply.Containment — how far a panic gets.

A module whose callback panics is dropped like any other that fails, and
what is left is a twin of the process that never saw it. This holds of
whatever modules are left out, as long as none of them was applied, and
however many of those that stay are dropped as well (`applyEach_apart`).

But the code of a module runs before its callback does: a library's entry
point is loaded by calling into it. A panic there is nobody's to catch. It
ends the list, and the process with it; what the module had hooked by then
stays hooked, and the modules after it have no turn. So a list of modules
comes to its end in one of two ways (`applyEach_contained`), and which one
it is depends on the loads alone.
-/
import Mathlib
import Interpose.Proofs.Apply.Isolation

namespace Interpose

variable {ν σ : Type}

/-- What a report says of all modules but some. -/
def ApplyReport.without (r : ApplyReport) (gone : List String) : ApplyReport :=
  { r with failed := r.failed.filter (·.moduleId ∉ gone) }

namespace ProcessSession

/-- Sessions of one application that name the modules which a report names. -/
structure Alike (session session' : ProcessSession) (r : ApplyReport) : Prop where
  app : session'.app = session.app
  left : session.moduleIds = r.applied
  right : session'.moduleIds = r.applied

namespace Alike

variable {session session' : ProcessSession} {r : ApplyReport}

theorem isApplied (h : Alike session session' r) (id : String) :
    session'.isApplied id = session.isApplied id := by
  rw [Bool.eq_iff_iff, isApplied_iff, isApplied_iff, h.left, h.right]

theorem pushApplied (h : Alike session session' r) (id : String) (priority : Int32)
    (hs hs' : List HookHandle) (diagnostics : List ModuleDiagnostic) :
    Alike (session.pushApplied ⟨id, priority, hs⟩) (session'.pushApplied ⟨id, priority, hs'⟩)
      { r with applied := r.applied ++ [id], diagnostics } where
  app := h.app
  left := (session.moduleIds_pushApplied _).trans (congrArg (· ++ [id]) h.left)
  right := (session'.moduleIds_pushApplied _).trans (congrArg (· ++ [id]) h.right)

theorem pushFailed_left (h : Alike session session' r) (id : String)
    (failed : List ModuleDiagnostic) :
    Alike (session.pushFailed id) session' { r with failed } where
  app := h.app.trans (session.app_pushFailed id).symm
  left := (session.moduleIds_pushFailed id).trans h.left
  right := h.right

theorem pushFailed (h : Alike session session' r) (id : String) (failed : List ModuleDiagnostic) :
    Alike (session.pushFailed id) (session'.pushFailed id) { r with failed } where
  app := (session'.app_pushFailed id).trans (h.pushFailed_left id failed).app
  left := (h.pushFailed_left id failed).left
  right := (session'.moduleIds_pushFailed id).trans h.right

end Alike

end ProcessSession

namespace Site

variable {elsewhere : MethodId → Option (Body ν)} {s s' t t' u : Site ν}

/-- A site that looks as another did. -/
structure Restored (elsewhere : MethodId → Option (Body ν)) (s s' : Site ν) : Prop where
  sound : s'.host.Sound s'.ledger elsewhere
  methods : Host.SameMethods s.host s'.host
  bodies : s'.ledger.bodies = s.ledger.bodies
  lines : s'.ledger.lines = s.ledger.lines

theorem Restored.refl (k : s.host.Sound s.ledger elsewhere) : Restored elsewhere s s :=
  ⟨k, .refl _, rfl, rfl⟩

theorem Twins.restored (T : Twins elsewhere s.fresh t.fresh) (hs : Restored elsewhere s s')
    (ht : Restored elsewhere t t') : Twins elsewhere s'.fresh t'.fresh where
  left := hs.sound
  right := ht.sound
  methods := (hs.methods.symm.trans T.methods).trans ht.methods
  bodies := ht.bodies.trans (T.bodies.trans hs.bodies.symm)
  faces := by
    show t'.ledger.lines.map Line.face = s'.ledger.lines.map Line.face
    rw [ht.lines, hs.lines]
    exact T.faces
  diagnostics := rfl
  installed := rfl

/-- A module that is dropped restores the site it came to. -/
theorem Grown.restored {moduleId : String} (h : Grown moduleId elsewhere s.fresh u)
    (k : s.host.Sound s.ledger elsewhere) :
    ∃ s', s'.host = (u.host.removeAll u.record.installed).2 ∧ Restored elsewhere s s' := by
  obtain ⟨L, hsound, hlines, hbodies, hmethods⟩ := rolled_back (s := s.fresh) k rfl h
  exact ⟨⟨_, L, {}⟩, rfl, hsound, hmethods, hbodies, hlines⟩

/-- A module that is applied adds lines of its own. -/
theorem Grown.owned {moduleId : String} (h : Grown moduleId elsewhere s.fresh u) :
    ∀ l ∈ u.ledger.lines, l ∈ s.ledger.lines ∨ l.moduleId = moduleId := by
  obtain ⟨new, hlines, -, hown⟩ := h.lines
  intro l hl
  rw [hlines] at hl
  exact (List.mem_append.mp hl).imp id (hown l)

/-- **Modules that do not read handles come to an end**, be it a panic. -/
theorem applyEach_comes (loader : Loader ν) (ms : List ModuleInfo)
    (hblind : ∀ m ∈ ms, ∀ e ∈ m.entryPoints, (loader e).Blind) (session : ProcessSession)
    (r : ApplyReport) (k : s.host.Sound s.ledger elsewhere) (a : σ) :
    ∃ ended after q, Host.applyEach loader.source ms session r a s.host
      = some (((ended, after), a), q) := by
  induction ms generalizing s session r with
  | nil => exact ⟨_, _, _, rfl⟩
  | cons m ms ih =>
    have hblind' := fun n hn => hblind n (List.mem_cons_of_mem m hn)
    cases hnew : session.isApplied m.moduleId with
    | true =>
      rw [Host.applyEach_cons_passed hnew]
      exact ih hblind' session r k
    | false =>
      obtain ⟨x, _, hboth, hends⟩ := applyModule_twins loader session.app m
        (hblind m List.mem_cons_self) (Twins.refl (s := s.fresh) k) a a
      rcases hends with ⟨why, hx, -⟩ | ⟨hx, -⟩ | ⟨message, hx, -⟩
      · obtain ⟨s', hs', hrestored⟩ := hboth.left.restored k
        rw [Host.applyEach_cons_dropped hnew hx, ← hs']
        exact ih hblind' _ _ hrestored.sound
      · rw [Host.applyEach_cons_applied hnew hx]
        exact ih hblind' _ _ hboth.left.sound
      · rw [Host.applyEach_cons_unwound hnew hx]
        exact ⟨_, _, _, rfl⟩

/-! ### Leaving modules out -/

/-- What a list of modules comes to in a twin when some of them are left out, if
it comes to a report in the site itself. The site is left as `u`, its twin as `v`. -/
structure Apart (loader : Loader ν) (gone : List String)
    (elsewhere : MethodId → Option (Body ν)) (ms : List ModuleInfo) (session : ProcessSession)
    (r report : ApplyReport) (b : σ) (s t u v : Site ν) : Prop where
  twin : ∃ after, Host.applyEach loader.source (ms.filter (·.moduleId ∉ gone)) session
    (r.without gone) b t.host = some (((.report (report.without gone), after), b), v.host)
  twins : Twins elsewhere u v
  owned : ∀ l ∈ u.ledger.lines, l ∈ s.ledger.lines ∨ l.moduleId ∈ report.applied

namespace Apart

variable {loader : Loader ν} {gone : List String} {ms : List ModuleInfo} {m : ModuleInfo}
variable {session : ProcessSession} {r report : ApplyReport} {b : σ} {v x y : Site ν}

theorem nil (T : Twins elsewhere s.fresh t.fresh) :
    Apart loader gone elsewhere [] session r r b s t s.fresh t.fresh where
  twin := ⟨session, rfl⟩
  twins := T
  owned := fun _ hl => .inl hl

/-- A module that was applied before is passed over by both. -/
theorem passed (h : Apart loader gone elsewhere ms session r report b s t u v)
    (hm : session.isApplied m.moduleId = true) (hkept : m.moduleId ∉ gone) :
    Apart loader gone elsewhere (m :: ms) session r report b s t u v where
  twin := by
    rw [List.filter_cons_of_pos (by simpa using hkept), Host.applyEach_cons_passed hm]
    exact h.twin
  twins := h.twins
  owned := h.owned

/-- A module that is dropped has no turn in the twin if it is left out there. -/
theorem leftOut {d : Diagnostic}
    (h : Apart loader gone elsewhere ms session
      { r with failed := r.failed ++ [{ moduleId := m.moduleId, diagnostic := d }] } report b s' t
      u v)
    (hs : Restored elsewhere s s') (hm : m.moduleId ∈ gone) :
    Apart loader gone elsewhere (m :: ms) session r report b s t u v where
  twin := by
    have hsame : ApplyReport.without
        { r with failed := r.failed ++ [{ moduleId := m.moduleId, diagnostic := d }] } gone
        = r.without gone := by
      simp [ApplyReport.without, hm]
    rw [List.filter_cons_of_neg (by simpa using hm), ← hsame]
    exact h.twin
  twins := h.twins
  owned := hs.lines ▸ h.owned

/-- Otherwise it is dropped in the twin as well. -/
theorem dropped {why : ModuleFailure}
    (h : Apart loader gone elsewhere ms (session.pushFailed m.moduleId)
      { r with failed := r.failed ++ [{
          moduleId := m.moduleId
          diagnostic := Diagnostic.of .moduleLoadFailure why.detail }] } report b s' t' u v)
    (hs : Restored elsewhere s s') (hm : m.moduleId ∉ gone)
    (hnew : session.isApplied m.moduleId = false)
    (ht : Host.applyModule loader.source session.app m b t.host
      = some ((.dropped why, b), t'.host)) :
    Apart loader gone elsewhere (m :: ms) session r report b s t u v where
  twin := by
    obtain ⟨after, hrun⟩ := h.twin
    refine ⟨after, ?_⟩
    rw [List.filter_cons_of_pos (by simpa using hm), Host.applyEach_cons_dropped hnew ht, ← hrun]
    simp [ApplyReport.without, hm]
  twins := h.twins
  owned := hs.lines ▸ h.owned

/-- A module that is applied is applied in the twin as well. -/
theorem applied {hs : List HookHandle} {ds : List Diagnostic}
    (h : Apart loader gone elsewhere ms (session.pushApplied ⟨m.moduleId, m.priority, hs⟩)
      { r with
        applied := r.applied ++ [m.moduleId]
        diagnostics := r.diagnostics ++ ds.map ({ moduleId := m.moduleId, diagnostic := · }) }
      report b x y u v)
    (hx : Grown m.moduleId elsewhere s.fresh x) (happlied : m.moduleId ∈ report.applied)
    (hkept : m.moduleId ∉ gone) (hnew : session.isApplied m.moduleId = false)
    (ht : Host.applyModule loader.source session.app m b t.host
      = some ((.applied hs ds, b), y.host)) :
    Apart loader gone elsewhere (m :: ms) session r report b s t u v where
  twin := by
    rw [List.filter_cons_of_pos (by simpa using hkept), Host.applyEach_cons_applied hnew ht]
    exact h.twin
  twins := h.twins
  owned := by
    intro l hl
    rcases h.owned l hl with hl | hl
    · exact (hx.owned l hl).imp_right fun hown => by rwa [hown]
    · exact .inr hl

end Apart

/-- **Modules that were not applied might as well not have come**: without
them the others come to the same, and leave a twin behind. -/
theorem applyEach_apart (loader : Loader ν) (gone : List String) (ms : List ModuleInfo)
    (hblind : ∀ m ∈ ms, ∀ e ∈ m.entryPoints, (loader e).Blind)
    {session session' : ProcessSession} {r report : ApplyReport} {after : ProcessSession}
    {a a' : σ} (b : σ) {q : Host ν} (hgone : ∀ id ∈ gone, id ∉ report.applied)
    (T : Twins elsewhere s.fresh t.fresh)
    (h : Host.applyEach loader.source ms session r a s.host
      = some (((.report report, after), a'), q)) (halike : session.Alike session' r) :
    ∃ u v, u.host = q ∧ Apart loader gone elsewhere ms session' r report b s t u v := by
  induction ms generalizing s t session session' r with
  | nil =>
    cases h
    exact ⟨s.fresh, t.fresh, rfl, .nil T⟩
  | cons m ms ih =>
    have hblind' := fun n hn => hblind n (List.mem_cons_of_mem m hn)
    cases hnew : session.isApplied m.moduleId with
    | true =>
      rw [Host.applyEach_cons_passed hnew] at h
      have hkept : m.moduleId ∉ gone := by
        intro hmem
        have hnamed := halike.left ▸ ProcessSession.isApplied_iff.mp hnew
        exact hgone _ hmem ((Host.accounts_of_report halike.left h).stillApplied hnamed)
      obtain ⟨u, v, hu, hapart⟩ := ih hblind' T h halike
      exact ⟨u, v, hu, hapart.passed ((halike.isApplied _).trans hnew) hkept⟩
    | false =>
      have hnew' := (halike.isApplied m.moduleId).trans hnew
      obtain ⟨x, y, hboth, hends⟩ := applyModule_twins loader session.app m
        (hblind m List.mem_cons_self) T a b
      rcases hends with ⟨why, hx, hy⟩ | ⟨hx, hy⟩ | ⟨message, hx, -⟩
      · obtain ⟨s', hs', hsr⟩ := hboth.left.restored T.left
        obtain ⟨t', ht', htr⟩ := hboth.right.restored T.right
        rw [Host.applyEach_cons_dropped hnew hx, ← hs'] at h
        by_cases hm : m.moduleId ∈ gone
        · obtain ⟨u, v, hu, hapart⟩ :=
            ih hblind' (T.restored hsr (.refl T.right)) h (halike.pushFailed_left _ _)
          exact ⟨u, v, hu, hapart.leftOut hsr hm⟩
        · obtain ⟨u, v, hu, hapart⟩ :=
            ih hblind' (T.restored hsr htr) h (halike.pushFailed _ _)
          rw [← ht', ← halike.app] at hy
          exact ⟨u, v, hu, hapart.dropped hsr hm hnew' hy⟩
      · rw [Host.applyEach_cons_applied hnew hx] at h
        rw [hboth.twins.diagnostics, ← halike.app] at hy
        have halike' := halike.pushApplied m.moduleId m.priority x.record.installed
          y.record.installed
          (r.diagnostics ++ x.record.diagnostics.map ({ moduleId := m.moduleId, diagnostic := · }))
        have happlied : m.moduleId ∈ report.applied :=
          (Host.accounts_of_report halike'.left h).stillApplied
            (List.mem_append_right _ List.mem_cons_self)
        have hkept : m.moduleId ∉ gone := fun hmem => hgone _ hmem happlied
        obtain ⟨u, v, hu, hapart⟩ := ih hblind' hboth.twins.fresh h halike'
        exact ⟨u, v, hu, hapart.applied hboth.left happlied hkept hnew' hy⟩
      · rw [Host.applyEach_cons_unwound hnew hx] at h
        cases h

/-- Twins carry the same layers, as far as can be seen. -/
theorem Twins.layers {v : Site ν} (T : Twins elsewhere u v) (m : MethodId) :
    (v.host.layers m).map Layer.face = (u.host.layers m).map Layer.face := by
  rw [T.left.layers, T.right.layers, List.map_map, List.map_map]
  exact Ledger.chain_faces T.left.timed T.right.timed T.faces m

/-- Twins run the same code for a method. -/
theorem Twins.dispatch {v : Site ν} (T : Twins elsewhere u v) (m : MethodId) :
    v.host.dispatch m = u.host.dispatch m :=
  Host.dispatch_congr T.left T.right T.bodies T.faces m

end Site

namespace Host

/-- What a process has come to that was brought such modules, and what it would
have come to without some of them. `rerun` says what that is. -/
structure Contained (loader : Loader ν) (app : AppDescriptor) (ms : List ModuleInfo) (p : Host ν)
    (r : ApplyReport) (q : Host ν) (rerun : List String → ApplyReport → Host ν → Prop) :
    Prop where
  /-- Every module has completed and is applied, or has failed and is reported. -/
  accounts : Accounts loader app ms {} r
  /-- Whatever layers there are stood there before or belong to a module that is applied. -/
  owned : ∀ m, ∀ l ∈ q.layers m, l ∈ p.layers m ∨ l.moduleId ∈ r.applied
  /-- Modules that were not applied might as well not have come. -/
  apart : ∀ gone : List String, (∀ id ∈ gone, id ∉ r.applied) →
    ∃ q', rerun gone (r.without gone) q' ∧
      (∀ m, (q'.layers m).map Layer.face = (q.layers m).map Layer.face) ∧
      ∀ m, q'.dispatch m = q.dispatch m

variable {loader : Loader ν} {app : AppDescriptor} {ms ms' : List ModuleInfo} {p q : Host ν}
variable {r : ApplyReport}

theorem Contained.imp {rerun rerun' : List String → ApplyReport → Host ν → Prop}
    (h : Contained loader app ms p r q rerun) (hperm : ms.Perm ms')
    (himp : ∀ gone r' q', rerun gone r' q' → rerun' gone r' q') :
    Contained loader app ms' p r q rerun' where
  accounts := h.accounts.perm hperm
  owned := h.owned
  apart := by
    intro gone hgone
    obtain ⟨q', hrerun, hsame⟩ := h.apart gone hgone
    exact ⟨q', himp _ _ _ hrerun, hsame⟩

/-- A process that was brought nothing. -/
theorem Contained.nothing {rerun : List String → ApplyReport → Host ν → Prop}
    (h : ∀ gone, rerun gone {} p) : Contained loader app [] p {} p rerun where
  accounts := .nil _
  owned := fun _ _ hl => .inl hl
  apart := fun gone _ => ⟨p, h gone, fun _ => rfl, fun _ => rfl⟩

/-- **A list of modules is contained, or panics as it is loaded.** -/
theorem applyEach_contained (hreached : p.Reached) (loader : Loader ν) (ms : List ModuleInfo)
    (hblind : ∀ m ∈ ms, ∀ e ∈ m.entryPoints, (loader e).Blind) (session : ProcessSession)
    (happlied : session.applied = []) (a : σ) :
    (∃ r after q, applyEach loader.source ms session {} a p
        = some (((.report r, after), a), q) ∧
      Contained loader session.app ms p r q fun gone r' q' => ∃ after',
        applyEach loader.source (ms.filter (·.moduleId ∉ gone)) session {} a p
          = some (((.report r', after'), a), q')) ∨
    ∃ message after q, applyEach loader.source ms session {} a p
        = some (((.unwound message, after), a), q) ∧
      ∃ m ∈ ms, m.Unwinds loader session.app message := by
  obtain ⟨L, elsewhere, k⟩ := hreached.orderly
  have hids : session.moduleIds = ({} : ApplyReport).applied := by
    rw [ProcessSession.moduleIds, happlied]
    rfl
  have halike : session.Alike session {} := ⟨rfl, hids, hids⟩
  obtain ⟨ended, after, q, hrun⟩ :=
    Site.applyEach_comes (s := ⟨p, L, {}⟩) loader ms hblind session {} k a
  rcases applyEach_accounts hids hrun with ⟨r, rfl, haccounts⟩ | ⟨m, hm, message, rfl, hunwinds⟩
  · refine .inl ⟨r, after, q, hrun, haccounts, ?_, ?_⟩
    · -- nothing has to be left out for this
      obtain ⟨u, _, rfl, hapart⟩ :=
        Site.applyEach_apart (s := ⟨p, L, {}⟩) (t := ⟨p, L, {}⟩) loader [] ms hblind a
          (fun _ hid => absurd hid List.not_mem_nil) (Site.Twins.refl k) hrun halike
      intro m l hl
      rw [hapart.twins.left.layers] at hl
      rw [k.layers]
      obtain ⟨line, hline, rfl⟩ := List.mem_map.mp hl
      obtain ⟨hmem, hm⟩ := Ledger.mem_chain.mp hline
      rcases hapart.owned line hmem with hold | hown
      · exact .inl (List.mem_map.mpr ⟨line, Ledger.mem_chain.mpr ⟨hold, hm⟩, rfl⟩)
      · exact .inr hown
    · intro gone hgone
      obtain ⟨u, v, rfl, hapart⟩ :=
        Site.applyEach_apart (s := ⟨p, L, {}⟩) (t := ⟨p, L, {}⟩) loader gone ms hblind a
          hgone (Site.Twins.refl k) hrun halike
      exact ⟨v.host, hapart.twin, hapart.twins.layers, hapart.twins.dispatch⟩
  · exact .inr ⟨message, after, q, hrun, m, hm, hunwinds⟩

/-- The same of modules that come in any order. -/
theorem apply_contained (hreached : p.Reached) (hentered : p.appEntered = false)
    (loader : Loader ν) (hblind : ∀ e, (loader e).Blind) (modules : List ModuleInfo)
    {session : ProcessSession} (happlied : session.applied = []) :
    (∃ r after q, p.apply loader modules session = some ((.report r, after), q) ∧
      Contained loader session.app modules p r q fun gone r' q' => ∃ after',
        p.apply loader (modules.filter (·.moduleId ∉ gone)) session
          = some ((.report r', after'), q')) ∨
    ∃ message after q, p.apply loader modules session = some ((.unwound message, after), q) ∧
      ∃ m ∈ modules, m.Unwinds loader session.app message := by
  have hperm : (ModuleInfo.inOrder modules).Perm modules :=
    List.mergeSort_perm modules ModuleInfo.before
  have happly : ∀ ms : List ModuleInfo, p.apply loader ms session
      = (applyEach loader.source (ModuleInfo.inOrder ms) session {} () p).map
          fun a => (a.1.1, a.2) := by
    intro ms
    rw [apply, applyFrom, hentered, if_neg Bool.false_ne_true]
  rcases applyEach_contained hreached loader (ModuleInfo.inOrder modules)
      (fun _ _ e _ => hblind e) session happlied () with
    ⟨r, after, q, hrun, hcontained⟩ | ⟨message, after, q, hrun, m, hm, hunwinds⟩
  · refine .inl ⟨r, after, q, by rw [happly, hrun]; rfl, hcontained.imp hperm ?_⟩
    rintro gone r' q' ⟨after', hrerun⟩
    rw [ModuleInfo.inOrder_filter] at hrerun
    exact ⟨after', by rw [happly, hrerun]; rfl⟩
  · exact .inr ⟨message, after, q, by rw [happly, hrun]; rfl, m, hperm.subset hm, hunwinds⟩

end Host

end Interpose
