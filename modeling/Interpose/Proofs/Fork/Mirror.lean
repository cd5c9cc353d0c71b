/-
Interpose.Proofs.Fork.Mirror — what the daemon's session says of a process.

A process tells the daemon twice what went wrong: it names the modules that
were dropped when it registers, and then reports everything else it has to
report, once for each. The daemon cannot tell the reports apart. A module
that was dropped is named already. But a request that was refused to a
module which stayed is reported the same way, and the daemon then counts
that module among those that failed, though the process carries it
(`forkFrom_mirrored_picky`).

So the two sides agree on what was applied, and `Mirrors` says by how much
they may differ on what failed.

Main statement: `forkFrom_mirrored`.
-/
import Interpose.Daemon.Link
import Interpose.Proofs.Fork.Trail
import Interpose.Proofs.Session.Table

namespace Interpose

variable {σ ν : Type}

/-! ## Reports -/

/-- The modules that a daemon notes as failed, when it has noted some already
and is told of more. -/
def noted (known : List String) (told : List String) : List String :=
  known ++ (told.filter fun id => id ≠ "" ∧ id ∉ known).eraseDups

@[simp] theorem noted_nil (known : List String) : noted known [] = known :=
  List.append_nil known

theorem mem_noted {known told : List String} {id : String} :
    id ∈ noted known told ↔ id ∈ known ∨ id ≠ "" ∧ id ∈ told := by
  rw [noted, List.mem_append, List.mem_eraseDups, List.mem_filter, decide_eq_true_eq]
  by_cases hid : id ∈ known <;> simp [hid, and_comm]

theorem noted_concat (known told : List String) (id : String) :
    noted known (told ++ [id]) = if id = "" ∨ id ∈ noted known told then noted known told
      else noted known told ++ [id] := by
  by_cases hnew : id ≠ "" ∧ id ∉ known
  · have hmem : id ∈ noted known told ↔ id ∈ told.filter fun id => id ≠ "" ∧ id ∉ known := by
      rw [noted, List.mem_append, List.mem_eraseDups]
      exact or_iff_right hnew.2
    have hkept : [id].filter (fun id => id ≠ "" ∧ id ∉ known) = [id] := by simp [hnew]
    rw [noted, List.filter_append, hkept, eraseDups_concat]
    by_cases hold : id ∈ told.filter fun id => id ≠ "" ∧ id ∉ known
    · rw [if_pos hold, if_pos (.inr (hmem.mpr hold))]
      rfl
    · rw [if_neg hold, if_neg (not_or.mpr ⟨hnew.1, fun h => hold (hmem.mp h)⟩), ← List.append_assoc]
      rfl
  · have hold : id = "" ∨ id ∈ noted known told := by
      rw [mem_noted]
      by_cases hid : id = ""
      · exact .inl hid
      · exact .inr (.inl (by simpa [hid] using hnew))
    have hnone : [id].filter (fun id => id ≠ "" ∧ id ∉ known) = [] := by
      simpa using hnew
    rw [if_pos hold, noted, List.filter_append, hnone, List.append_nil]
    rfl

/-- To be told again of what is noted changes nothing. -/
theorem noted_append {known told : List String} (h : ∀ id ∈ told, id ∈ known)
    (more : List String) : noted known (told ++ more) = noted known more := by
  have hnone : told.filter (fun id => id ≠ "" ∧ id ∉ known) = [] :=
    List.filter_eq_nil_iff.mpr fun id hid => by simp [h id hid]
  rw [noted, List.filter_append, hnone, List.nil_append]
  rfl

theorem noted_eq_iff {known told : List String} :
    noted known told = known ↔ ∀ id ∈ told, id = "" ∨ id ∈ known := by
  constructor
  · intro h id hid
    by_cases hname : id = ""
    · exact .inl hname
    · have hmem : id ∈ noted known told := mem_noted.mpr (.inr ⟨hname, hid⟩)
      exact .inr (h ▸ hmem)
  · intro h
    have hnone : told.filter (fun id => id ≠ "" ∧ id ∉ known) = [] :=
      List.filter_eq_nil_iff.mpr fun id hid => by simpa [imp_iff_not_or] using h id hid
    rw [noted, hnone]
    exact List.append_nil known

namespace Session

theorem fail_eq (s : Session) (id : String) : s.fail id = { s with
    failedModuleIds := if id = "" ∨ id ∈ s.failedModuleIds then s.failedModuleIds
      else s.failedModuleIds ++ [id] } := by
  have hcond : (id.isEmpty || s.failedModuleIds.contains id) = true ↔
      id = "" ∨ id ∈ s.failedModuleIds := by
    rw [Bool.or_eq_true, String.isEmpty_iff, List.contains_iff_mem]
  rw [fail]
  by_cases h : id = "" ∨ id ∈ s.failedModuleIds
  · rw [if_pos (hcond.mpr h), if_pos h]
  · rw [if_neg fun hc => h (hcond.mp hc), if_neg h]

/-- What many reports make of a session: one more module for each that is named and new. -/
theorem foldl_fail (s : Session) (ids : List String) :
    ids.foldl fail s = { s with failedModuleIds := noted s.failedModuleIds ids } := by
  induction ids using List.reverseRecOn with
  | nil => rw [noted_nil, List.foldl_nil]
  | append_singleton ids id ih => rw [List.foldl_concat, ih, fail_eq, noted_concat]

end Session

/-- Reports of a process change its session alone. -/
theorem Daemon.reportAll_session (pid : UInt32) (ds : List ModuleDiagnostic) (d : Daemon)
    {s : Session} (h : d.sessions.get? pid = some s) :
    (Daemon.link.reportAll pid ds d).sessions.get? pid
      = some ((ds.map (·.moduleId)).foldl Session.fail s) := by
  induction ds generalizing d s with
  | nil => exact h
  | cons x ds ih =>
    refine ih _ ?_
    show (d.sessions.recordFailure pid x.moduleId).get? pid = _
    rw [SessionTable.get?_recordFailure, if_pos rfl, h]
    rfl

/-! ## A process that runs -/

/-- A process that is offered modules, and applies those that are meant for it, runs. -/
theorem Host.forkFrom_running {link : Link σ} {source : Source ν σ} (heartbeat : Bool)
    {pid : UInt32} {app : AppDescriptor} {s s' s'' : σ} {p q : Host ν} {answer : ScopeAnswer}
    {session : ProcessSession} {report : ApplyReport} (hentered : p.appEntered = false)
    (hasked : link.queryScope app s = (.ok answer, s')) (hmeant : answer.meant app ≠ [])
    (happlied : applyEach source (answer.meant app)
        { pid, app, registryVersion := answer.registryVersion } {} s' p
      = some (((.report report, session), s''), q)) :
    forkFrom link source false heartbeat pid app s p
      = some ((.outcome (announce link heartbeat session report s'').1,
        (announce link heartbeat session report s'').2), q) := by
  rw [forkFrom_meant hentered hasked hmeant, happlied]
  rfl

/-- The session that the daemon holds of a process, by what the process says of itself. -/
structure Mirrors (known : Session) (session : ProcessSession) (r : ApplyReport) : Prop where
  pid : known.pid = session.pid
  app : known.app = session.app
  registryVersion : known.registryVersion = session.registryVersion
  token : some known.token = session.token
  /-- The modules that were applied, in the order of application. -/
  moduleIds : known.moduleIds = session.moduleIds
  /-- The modules that were dropped, and then those that were refused a
  request, each once. -/
  failed : known.failedModuleIds = noted session.failed (r.diagnostics.map (·.moduleId))
  /-- So these are the modules that were dropped exactly if no other module,
  unless it has no name, was refused a request. -/
  agrees : known.failedModuleIds = session.failed ↔
    ∀ x ∈ r.diagnostics, x.moduleId = "" ∨ x.moduleId ∈ session.failed

/-- Only a process whose application has an id is answered. -/
theorem Daemon.neededApp_of_queryScope {app : AppDescriptor} {d d' : Daemon} {answer : ScopeAnswer}
    (h : Daemon.link.queryScope app d = (.ok answer, d')) :
    ∃ app', Daemon.neededApp (some app) = .ok app' := by
  cases happ : Daemon.neededApp (some app) with
  | ok app' => exact ⟨app', rfl⟩
  | error e =>
    have hnone : d.queryScope { app := some app } = .error e := by rw [queryScope, happ]; rfl
    simp only [link, hnone] at h
    cases h

/-- The daemon's session of a process that has registered and then reported. -/
theorem announce_mirrored {begun session : ProcessSession} {report : ApplyReport}
    (t : begun.Tells session report) (heartbeat : Bool) {app' : AppDescriptor}
    (happ : Daemon.neededApp (some session.app) = .ok app') (d : Daemon) :
    let a := Host.announce Daemon.link heartbeat session report d
    ∃ token known, a.1.session = some { session with token } ∧
      a.2.sessions.get? session.pid = some known ∧ Mirrors known { session with token } report := by
  obtain ⟨d₁, hanswer, -⟩ := Daemon.registerSession_named (r := session.registration) d happ
  obtain ⟨app, hregistered, hsessions⟩ := Daemon.registerSession_ok hanswer
  obtain ⟨s, htoken, hfailed, hrecords, hget⟩ := SessionTable.get?_register d.sessions
    d.tokens.next.1 d.clock app session.registration session.pid
  have hrecords := hrecords hregistered
  have hheld : d₁.sessions.get? session.pid = some s := by
    rw [hsessions, hget]
    exact if_pos rfl
  have hregister : Daemon.link.register session.registration d
      = (.ok d.tokens.next.1, d₁) := by simp only [Daemon.link, hanswer]; rfl
  have hknown := Daemon.reportAll_session session.pid report.reportable d₁ hheld
  -- the modules that were dropped are noted already
  have hdropped : ∀ id ∈ report.failed.map (·.moduleId), id ∈ s.failedModuleIds := by
    intro id hid
    rw [hfailed]
    show id ∈ session.failed
    rw [t.failed, ApplyReport.failedModules, List.mem_eraseDups]
    exact hid
  rw [Session.foldl_fail, ApplyReport.reportable, List.map_append, noted_append hdropped, hfailed]
    at hknown
  rw [Host.announce_eq, hregister]
  refine ⟨_, _, rfl, hknown, hrecords.pid, Option.some.inj hrecords.app,
    hrecords.registryVersion, congrArg some htoken, hrecords.moduleIds, rfl, ?_⟩
  refine noted_eq_iff.trans ?_
  rw [List.forall_mem_map]
  rfl

/-- **The daemon's session of a process that runs** names the same modules as
applied, in the same order; as failed it names those that were dropped, and
besides every module that was refused a request, though the process may
carry it. -/
theorem forkFrom_mirrored {source : Source ν Daemon} {startsMeanwhile heartbeat : Bool}
    {pid : UInt32} {app : AppDescriptor} {d d' : Daemon} {p q : Host ν} {o : ForkOutcome}
    (h : Host.forkFrom Daemon.link source startsMeanwhile heartbeat pid app d p
      = some ((.outcome o, d'), q)) (hrunning : o.state = .running) :
    ∃ session known, o.session = some session ∧ d'.sessions.get? pid = some known ∧
      session.pid = pid ∧ session.app = app ∧ session.moduleIds = o.report.applied ∧
      session.failed = o.report.failedModules ∧ Mirrors known session o.report := by
  cases Host.forkFrom_exit h with
  | @running answer d₁ d₂ session report q hentered hasked happlied =>
    have htells : ProcessSession.Tells
        { pid, app, registryVersion := answer.registryVersion } session report := by
      rcases Host.applyEach_tells (.begin pid app answer.registryVersion) happlied with
        ⟨_, hm⟩ | ⟨r, hr, ht⟩
      · cases hm
      · cases hr
        exact ht
    obtain ⟨app', happ⟩ := Daemon.neededApp_of_queryScope hasked
    have happ : Daemon.neededApp (some session.app) = .ok app' := by rwa [htells.app]
    have hreport : (Host.announce Daemon.link heartbeat session report d₂).1.report = report := by
      rw [Host.announce_eq]
    obtain ⟨token, known, hsession, hknown, hmirrors⟩ :=
      announce_mirrored htells heartbeat happ d₂
    rw [htells.pid] at hknown
    rw [hreport]
    exact ⟨_, known, hsession, hknown, htells.pid, htells.app, htells.applied, htells.failed,
      hmirrors⟩
  | _ => cases hrunning

/-! ## A module that is refused a request -/

/-- A module that is meant for everybody. -/
def picky : Module where
  id := "picky"
  enabled := true
  scope := .all
  entryPoints := [{ codePath := "picky" }]

/-- Its callback hooks a method that there is not, is refused, and completes. -/
def pickySource : Source Unit Daemon := fun _ d =>
  (.ready (.hookMethod ⟨1⟩ { run := fun v => .proceed v.call.args .finish } fun _ =>
    .finish .completed), d)

/-- What a process says of itself that carries the module. -/
def pickySession : ProcessSession where
  pid := 7
  app := { appId := "shop" }
  applied := [{ moduleId := "picky", priority := 0, handles := [] }]
  registryVersion := 1

def pickyReport : ApplyReport where
  applied := ["picky"]
  diagnostics := [{
    moduleId := "picky"
    diagnostic := Diagnostic.of .hookInstallFailure
      (InstallError.hook (.unresolvable (MethodId.text ⟨1⟩))).message (MethodId.text ⟨1⟩) }]

theorem forkFrom_picky {d : Daemon}
    (hd : d.registry.current = ⟨1, 1, Keyed.empty.insert "picky" picky⟩) :
    Host.forkFrom Daemon.link pickySource false true 7 { appId := "shop" } d {}
      = some ((.outcome (Host.announce Daemon.link true pickySession pickyReport d).1,
        (Host.announce Daemon.link true pickySession pickyReport d).2), {}) := by
  have happlicable : Registry.Document.applicable ⟨1, 1, Keyed.empty.insert "picky" picky⟩
      { appId := "shop" } = [picky] := by decide +kernel
  have hasked : Daemon.link.queryScope { appId := "shop" } d
      = (.ok { registryVersion := 1, modules := [picky.toInfo] }, d) := by
    have hneeded : Daemon.neededApp (some { appId := "shop" }) = .ok { appId := "shop" } := rfl
    simp only [Daemon.link, Daemon.queryScope, hneeded, Except.map, Daemon.version, hd,
      happlicable]
    rfl
  have hmeant : ScopeAnswer.meant { registryVersion := 1, modules := [picky.toInfo] }
      { appId := "shop" } = [picky.toInfo] := List.mergeSort_singleton _
  refine Host.forkFrom_running true rfl hasked ?_ ?_
  · simp [hmeant]
  · rw [hmeant]
    rfl

/-- The process is as it should be, and the daemon's session mirrors it so far
as `Mirrors` says. -/
theorem forkFrom_mirrored_carried :
    let booted := Daemon.boot default { tokens := { name := toString } }
    let d : Daemon := {
      booted with registry := { current := ⟨1, 1, Keyed.empty.insert "picky" picky⟩ } }
    ∃ o d', Host.forkFrom Daemon.link pickySource false true 7 { appId := "shop" } d {}
        = some ((.outcome o, d'), {}) ∧ o.state = .running ∧
      ∃ session known, o.session = some session ∧ d'.sessions.get? 7 = some known ∧
        Mirrors known session o.report := by
  intro booted d
  have hrun := forkFrom_picky (d := d) rfl
  have hrunning : (Host.announce Daemon.link true pickySession pickyReport d).1.state
      = .running := by rw [Host.announce_eq]
  obtain ⟨session, known, hsession, hknown, -, -, -, -, hmirrors⟩ :=
    forkFrom_mirrored hrun hrunning
  exact ⟨_, _, hrun, hrunning, session, known, hsession, hknown, hmirrors⟩

/-- The module is applied and nothing is dropped, and yet the daemon holds that it failed. -/
theorem forkFrom_mirrored_blamed :
    let booted := Daemon.boot default { tokens := { name := toString } }
    let d : Daemon := {
      booted with registry := { current := ⟨1, 1, Keyed.empty.insert "picky" picky⟩ } }
    ∃ o d' session known,
      Host.forkFrom Daemon.link pickySource false true 7 { appId := "shop" } d {}
        = some ((.outcome o, d'), {}) ∧ o.state = .running ∧
      o.session = some session ∧ d'.sessions.get? 7 = some known ∧
      session.moduleIds = ["picky"] ∧ session.failed = [] ∧
      known.failedModuleIds = ["picky"] := by
  intro booted d
  have hrun := forkFrom_picky (d := d) rfl
  have hrunning : (Host.announce Daemon.link true pickySession pickyReport d).1.state
      = .running := by rw [Host.announce_eq]
  have htells : pickySession.Tells pickySession pickyReport := ⟨rfl, rfl, rfl, rfl, rfl, rfl⟩
  have happ : Daemon.neededApp (some pickySession.app) = .ok { appId := "shop" } := rfl
  obtain ⟨token, known, hsession, hknown, hmirrors⟩ :=
    announce_mirrored htells true happ d
  refine ⟨_, _, _, known, hrun, hrunning, hsession, hknown, rfl, rfl, ?_⟩
  rw [hmirrors.failed]
  rfl

end Interpose
