/-
Interpose.Proofs.Apply.Recording — a module's context records everything it did.

What a callback asks of its context comes down to methods that are to be
hooked, one after the other: one for a descriptor or a method, one for each
overload of a name, and one that there is not where nothing resolves. Each
is attempted once, and each attempt is an install on the hook table or comes
to nothing before it. `HookRequest.targets` says what a request comes down
to, `HookContext.attempts` what comes of it, and `ask_eq` that the context
answers and records exactly that.

So the context's record can be read beside the hook table: the attempts that
were answered with a handle are the layers that the table gained, and each of
the others is one diagnostic (`HookContext.Recorded`). The runtime need not
stay the same for this, nor be willing: whatever it has become by the next
request, the table is told by its own operations (`Host.Tabled`).

Main statements: `askAll_recorded`; and `run_asks`, that a callback is such a
row of requests.
-/
import Interpose.Proofs.Hook.Tabled
import Interpose.Proofs.Apply.Tenancy

namespace Interpose

variable {ν : Type}

/-! ## Requests and what they come down to -/

/-- A request for hooks that a module makes of its context. -/
inductive HookRequest (ν : Type) where
  | hook (descriptor : String) (h : Hook ν)
  | hookMethod (m : MethodId) (h : Hook ν)
  | hookAll (className name : String) (h : Hook ν)

/-- A method that is to be hooked, or the name of one that there is not. -/
structure HookTarget where
  /-- What a refusal is told under. -/
  label : String
  method : Except ResolveError MethodId

/-- A target that was attempted. -/
structure Attempt (ν : Type) where
  target : HookTarget
  hook : Hook ν
  answer : Except InstallError HookHandle

namespace HookRequest

abbrev Answer : HookRequest ν → Type
  | hook .. | hookMethod .. => Except InstallError HookHandle
  | hookAll .. => Except InstallError (List HookHandle)

/-- The hook that is to be installed. -/
def wanted : HookRequest ν → Hook ν
  | hook _ h | hookMethod _ h | hookAll _ _ h => h

/-- What is to be hooked. A descriptor is told as it was given, a method by
its own descriptor, and a name that has no overload by the name. -/
def targets (q : HookRequest ν) (p : Host ν) : List HookTarget :=
  match q with
  | hook d _ => [{ label := d, method := p.declarations.resolveText d }]
  | hookMethod m _ => [{ label := HookContext.methodLabel m p, method := .ok m }]
  | hookAll className name _ =>
    match p.declarations.resolveAll className name with
    | .error e => [{ label := className ++ "#" ++ name, method := .error e }]
    | .ok ms => ms.map fun m => { label := HookContext.methodLabel m p, method := .ok m }

end HookRequest

namespace Attempt

/-- The layer that came of it, installed for this module. -/
def layer? (ctx : HookContext) (a : Attempt ν) : Option (Layer ν) :=
  match a.target.method, a.answer with
  | .ok m, .ok g => some {
      handle := g, method := m, moduleId := ctx.moduleId, priority := ctx.priority
      order := g.raw, hook := a.hook }
  | _, _ => none

def handle? (a : Attempt ν) : Option HookHandle := a.answer.toOption

/-- Why nothing came of it. -/
def error? (a : Attempt ν) : Option InstallError :=
  match a.answer with
  | .ok _ => none
  | .error e => some e

/-- What is told of it, if nothing came of it. -/
def diagnostic? (a : Attempt ν) : Option Diagnostic :=
  a.error?.map fun e => Diagnostic.of .hookInstallFailure e.message a.target.label

end Attempt

/-- What a request is answered, by what came of its targets: a request for one
method what came of that, and a request for all overloads an error exactly if
none was hooked, the last one then, and otherwise the handles of those that
were. -/
def HookRequest.Concludes : (q : HookRequest ν) → List (Attempt ν) → q.Answer → Prop
  | hook .., as, a => as.map (·.answer) = [a]
  | hookMethod .., as, a => as.map (·.answer) = [a]
  | hookAll .., as, a =>
    ((∃ e, a = .error e) ↔ ∀ x ∈ as, x.handle? = none) ∧
      (∀ hs, a = .ok hs → hs = as.filterMap (·.handle?)) ∧
      ∀ e, a = .error e → (as.filterMap (·.error?)).getLast? = some e

namespace HookContext

/-! ## Attempts -/

variable (ctx : HookContext) (h : Hook ν)

/-- Attempts one target. -/
def attempt (t : HookTarget) (p : Host ν) : Except InstallError HookHandle × Host ν :=
  match t.method with
  | .error e => (.error (.resolve e), p)
  | .ok m =>
    let a := p.install m h ctx.priority ctx.moduleId
    (a.1.mapError .hook, a.2)

/-- Attempts one target after the other. -/
def attempts : List HookTarget → Host ν → List (Attempt ν) × Host ν
  | [], p => ([], p)
  | t :: ts, p =>
    let a := ctx.attempt h t p
    let rest := attempts ts a.2
    ({ target := t, hook := h, answer := a.1 } :: rest.1, rest.2)

variable {p : Host ν}

/-- Every target is attempted once. -/
theorem map_target_attempts (ts : List HookTarget) (p : Host ν) :
    (ctx.attempts h ts p).1.map (·.target) = ts := by
  induction ts generalizing p with
  | nil => rfl
  | cons t ts ih => simp [attempts, ih]

/-- Attempting a target on a regular table gains the layer that comes of it. -/
theorem attempt_gains (hp : p.Regular) (t : HookTarget) :
    let a : Attempt ν := { target := t, hook := h, answer := (ctx.attempt h t p).1 }
    (ctx.attempt h t p).2.Regular ∧
      a.handle? = (a.layer? ctx).map (·.handle) ∧
      Host.Gains (a.layer? ctx).toList p (ctx.attempt h t p).2 := by
  obtain ⟨label, method⟩ := t
  cases method with
  | error e => exact ⟨hp, rfl, .nil hp (i := 0) rfl rfl⟩
  | ok m =>
    obtain ⟨hq, ⟨e, he, hgain⟩ | ⟨hok, hgain⟩⟩ := hp.install h ctx.priority ctx.moduleId m
    · simp only [attempt, he]
      exact ⟨hq, rfl, hgain⟩
    · simp only [attempt, hok]
      exact ⟨hq, rfl, hgain⟩

/-- **Attempts gain the layers that come of them**, and the handles are theirs. -/
theorem attempts_gains (hp : p.Regular) (ts : List HookTarget) :
    (ctx.attempts h ts p).2.Regular ∧
      (ctx.attempts h ts p).1.filterMap (·.handle?)
        = ((ctx.attempts h ts p).1.filterMap (·.layer? ctx)).map (·.handle) ∧
      Host.Gains ((ctx.attempts h ts p).1.filterMap (·.layer? ctx)) p (ctx.attempts h ts p).2 := by
  induction ts generalizing p with
  | nil => exact ⟨hp, rfl, .nil hp (i := 0) rfl rfl⟩
  | cons t ts ih =>
    obtain ⟨hq, hhandle, hgain⟩ := attempt_gains ctx h hp t
    obtain ⟨hr, hhandles, hgains⟩ := ih hq
    have hboth := hgain.trans hgains hp
    simp only [attempts, List.filterMap_cons]
    refine ⟨hr, ?_, ?_⟩
    · rw [hhandle, hhandles]
      cases Attempt.layer? ctx _ <;> rfl
    · revert hboth
      cases Attempt.layer? ctx _ <;> exact id

end HookContext

/-! ## What is recorded of a request -/

/-- A record with what came of these attempts as well. -/
def InitRecord.noting (r : InitRecord) (as : List (Attempt ν)) : InitRecord where
  installed := r.installed ++ as.filterMap (·.handle?)
  diagnostics := r.diagnostics ++ as.filterMap (·.diagnostic?)

theorem InitRecord.noting_append (r : InitRecord) (as bs : List (Attempt ν)) :
    r.noting (as ++ bs) = (r.noting as).noting bs := by
  simp [noting]

theorem InitRecord.noting_nil (r : InitRecord) : r.noting ([] : List (Attempt ν)) = r := by
  simp [noting]

namespace HookContext

variable {ctx : HookContext} {h : Hook ν} {r : InitRecord} {p : Host ν}

/-- Makes a request of the context. -/
def ask (ctx : HookContext) (q : HookRequest ν) (r : InitRecord) (p : Host ν) :
    q.Answer × InitRecord × Host ν :=
  match q with
  | .hook d h => ctx.hook d h r p
  | .hookMethod m h => ctx.hookMethod m h r p
  | .hookAll className name h => ctx.hookAll className name h r p

/-- An attempt that was answered with a handle is noted by the handle. -/
theorem noting_hooked (r : InitRecord) (t : HookTarget) (h : Hook ν) (g : HookHandle) :
    r.noting [({ target := t, hook := h, answer := .ok g } : Attempt ν)]
      = { r with installed := r.installed ++ [g] } := by
  simp [InitRecord.noting, Attempt.handle?, Attempt.diagnostic?, Attempt.error?, Except.toOption]

/-- Any other is noted by a diagnostic under its label. -/
theorem noting_refused (r : InitRecord) (t : HookTarget) (h : Hook ν) (e : InstallError) :
    r.noting [({ target := t, hook := h, answer := .error e } : Attempt ν)]
      = refuse r t.label e := by
  simp [InitRecord.noting, Attempt.handle?, Attempt.diagnostic?, Attempt.error?, Except.toOption,
    refuse]

/-- Installing is attempting a target that there is. -/
theorem installOn_eq (m : MethodId) (label : String) :
    ctx.installOn m label h r p =
      let t : HookTarget := { label, method := .ok m }
      let a := ctx.attempt h t p
      (a.1, r.noting [({ target := t, hook := h, answer := a.1 } : Attempt ν)], a.2) := by
  simp only [installOn, attempt]
  generalize p.install m h ctx.priority ctx.moduleId = a
  obtain ⟨a, q⟩ := a
  cases a with
  | ok g => simp only [Except.mapError, noting_hooked]
  | error e => simp only [Except.mapError, noting_refused]

/-- What a method is told by does not change as hooks are installed. -/
theorem methodLabel_attempt (ctx : HookContext) (h : Hook ν) (p : Host ν) (t : HookTarget)
    (m : MethodId) :
    methodLabel m (ctx.attempt h t p).2 = methodLabel m p := by
  unfold attempt
  split
  · rfl
  · rename_i a _
    have hinfos := (p.hooksOnly_install a h ctx.priority ctx.moduleId).infos
    simp only [methodLabel, Host.info?_eq_find?, hinfos]

/-- Hooking one method after the other is attempting them all. -/
theorem hookEach_eq (ms : List MethodId) (r : InitRecord) (p : Host ν) {label : MethodId → String}
    (hlabel : ∀ m, methodLabel m p = label m) :
    ctx.hookEach h ms r p =
      let as := ctx.attempts h (ms.map fun m => { label := label m, method := .ok m }) p
      ((as.1.filterMap (·.handle?), (as.1.filterMap (·.error?)).getLast?), r.noting as.1, as.2) := by
  induction ms generalizing r p with
  | nil => simp [hookEach, attempts, InitRecord.noting_nil]
  | cons m ms ih =>
    have hnext := methodLabel_attempt ctx h p
      { label := label m, method := .ok m }
    simp only [hookEach, hookMethod, installOn_eq, hlabel, List.map_cons, attempts]
    generalize ctx.attempt h { label := label m, method := .ok m } p = a at hnext ⊢
    obtain ⟨a, q⟩ := a
    have hrest := fun r => ih r q fun m => (hnext m).trans (hlabel m)
    cases a with
    | ok g => simp [hrest, Attempt.handle?, Attempt.error?, Except.toOption,
        ← InitRecord.noting_append]
    | error e => simp [hrest, Attempt.handle?, Attempt.error?, Except.toOption,
        ← InitRecord.noting_append, List.getLast?_cons, Option.or_some]

/-- Where no attempt was answered with a handle, the last of them tells why. -/
theorem exists_last_error {as : List (Attempt ν)} (hne : as ≠ [])
    (hnone : as.filterMap (·.handle?) = []) :
    ∃ e, (as.filterMap (·.error?)).getLast? = some e := by
  obtain ⟨a, as, rfl⟩ := List.exists_cons_of_ne_nil hne
  obtain ⟨t, h, answer⟩ := a
  cases answer with
  | ok g => simp [Attempt.handle?, Except.toOption] at hnone
  | error e => simp [Attempt.error?, List.getLast?_cons]

theorem resolveAll_ne_nil {ds : Declarations} {className name : String} {ms : List MethodId}
    (h : ds.resolveAll className name = .ok ms) : ms ≠ [] := by
  unfold Declarations.resolveAll at h
  split at h
  · cases h
  · split at h
    · cases h
    · rename_i hne
      cases h
      exact fun hnil => hne (List.map_eq_nil_iff.mp hnil)

/-- **A request comes down to its targets**: what the context answers and what
it records is what comes of them. -/
theorem ask_eq (ctx : HookContext) (q : HookRequest ν) (r : InitRecord) (p : Host ν) :
    let as := ctx.attempts q.wanted (q.targets p) p
    (ctx.ask q r p).2 = (r.noting as.1, as.2) ∧ q.Concludes as.1 (ctx.ask q r p).1 := by
  cases q with
  | hook d h =>
    simp only [ask, hook, HookRequest.targets, HookRequest.wanted]
    cases p.declarations.resolveText d with
    | error e =>
      simp only [attempts, attempt, noting_refused]
      exact ⟨trivial, rfl⟩
    | ok m =>
      dsimp only
      rw [installOn_eq]
      exact ⟨rfl, rfl⟩
  | hookMethod m h =>
    simp only [ask, hookMethod, HookRequest.targets, HookRequest.wanted]
    rw [installOn_eq]
    exact ⟨rfl, rfl⟩
  | hookAll className name h =>
    simp only [ask, hookAll, HookRequest.targets, HookRequest.wanted]
    cases hres : p.declarations.resolveAll className name with
    | error e =>
      simp only [attempts, attempt, noting_refused]
      refine ⟨trivial, ?_⟩
      simp [HookRequest.Concludes, Attempt.handle?, Attempt.error?, Except.toOption]
    | ok ms =>
      have hne : (ctx.attempts h (ms.map fun m =>
          { label := methodLabel m p, method := .ok m }) p).1 ≠ [] := by
        intro hnil
        have htargets := map_target_attempts ctx h (ms.map fun m =>
          { label := methodLabel m p, method := .ok m }) p
        rw [hnil] at htargets
        exact resolveAll_ne_nil hres (List.map_eq_nil_iff.mp htargets.symm)
      dsimp only
      rw [hookEach_eq ms r p fun _ => rfl]
      generalize ctx.attempts h _ p = as at hne ⊢
      dsimp only
      cases hhandles : as.1.filterMap (·.handle?) with
      | nil =>
        obtain ⟨e, he⟩ := exists_last_error hne hhandles
        rw [he]
        refine ⟨rfl, ?_, nofun, fun e' heq => ?_⟩
        · exact ⟨fun _ => List.filterMap_eq_nil_iff.mp hhandles, fun _ => ⟨e, rfl⟩⟩
        · cases heq
          exact he
      | cons g gs =>
        refine ⟨rfl, ⟨(fun ⟨_, heq⟩ => nomatch heq), fun hnone => ?_⟩, fun hs heq => ?_, nofun⟩
        · rw [List.filterMap_eq_nil_iff.mpr hnone] at hhandles
          cases hhandles
        · cases heq
          exact hhandles.symm

end HookContext

/-! ## Rows of requests -/

/-- A process with another runtime under its hook table. -/
def Host.onto (p runtime : Host ν) : Host ν :=
  { runtime with slots := p.slots, table := p.table }

/-- What happens while a module has its context. -/
inductive ContextStep (ν : Type) where
  | ask (q : HookRequest ν)
  /-- The runtime has become that of this process; the hook table was left alone. -/
  | meanwhile (runtime : Host ν)

/-- A request that was made. -/
structure Asked (ν : Type) where
  /-- The process it was made in. -/
  process : Host ν
  request : HookRequest ν
  answer : request.Answer

namespace HookContext

/-- Takes one step after the other, and lists the requests with their answers. -/
def askAll (ctx : HookContext) :
    List (ContextStep ν) → InitRecord → Host ν → List (Asked ν) × InitRecord × Host ν
  | [], r, p => ([], r, p)
  | .ask q :: steps, r, p =>
    let a := ctx.ask q r p
    let rest := ctx.askAll steps a.2.1 a.2.2
    ({ process := p, request := q, answer := a.1 } :: rest.1, rest.2)
  | .meanwhile runtime :: steps, r, p => ctx.askAll steps r (p.onto runtime)

/-- What came of a request's targets. -/
def tried (ctx : HookContext) (x : Asked ν) : List (Attempt ν) :=
  (ctx.attempts x.request.wanted (x.request.targets x.process) x.process).1

/-- What came of all targets, request by request. -/
def triedAll (ctx : HookContext) (asked : List (Asked ν)) : List (Attempt ν) :=
  asked.flatMap ctx.tried

/-- The layers that came of it. -/
def gained (ctx : HookContext) (asked : List (Asked ν)) : List (Layer ν) :=
  (ctx.triedAll asked).filterMap (·.layer? ctx)

variable {p : Host ν}

/-- **A row of requests gains the layers that came of it**, records what came
of its targets, and concludes each request. -/
theorem askAll_gains (ctx : HookContext) (hp : p.Regular) (steps : List (ContextStep ν))
    (r : InitRecord) :
    let a := ctx.askAll steps r p
    a.2.1 = r.noting (ctx.triedAll a.1) ∧
      (ctx.triedAll a.1).filterMap (·.handle?) = (ctx.gained a.1).map (·.handle) ∧
      Host.Gains (ctx.gained a.1) p a.2.2 ∧
      ∀ x ∈ a.1, x.request.Concludes (ctx.tried x) x.answer := by
  induction steps generalizing r p with
  | nil =>
    exact ⟨r.noting_nil.symm, rfl, .nil hp (i := 0) rfl rfl, fun x hx => absurd hx List.not_mem_nil⟩
  | cons step steps ih =>
    cases step with
    | ask q =>
      obtain ⟨hrest, hconcludes⟩ := ask_eq ctx q r p
      obtain ⟨hq, hhandle, hgain⟩ := attempts_gains ctx q.wanted hp (q.targets p)
      obtain ⟨hrecord, hhandles, hgains, hall⟩ := ih hq
        (r.noting (ctx.attempts q.wanted (q.targets p) p).1)
      simp only [askAll, hrest, triedAll, gained, tried, List.flatMap_cons,
        List.filterMap_append, List.map_append] at hrecord hhandles hgains hall ⊢
      refine ⟨?_, ?_, hgain.trans hgains hp, ?_⟩
      · rw [hrecord, InitRecord.noting_append]
      · rw [hhandle, hhandles]
      · intro x hx
        rcases List.mem_cons.mp hx with rfl | hx
        · exact hconcludes
        · exact hall x hx
    | meanwhile runtime =>
      have hq : (p.onto runtime).Regular := hp.same (i := 0) rfl rfl
      obtain ⟨hrecord, hhandles, hgains, hall⟩ := ih hq r
      have hidle : Host.Gains [] p (p.onto runtime) := .nil hp (i := 0) rfl rfl
      exact ⟨hrecord, hhandles, hidle.trans hgains hp, hall⟩

end HookContext

/-! ## Callbacks as rows of requests -/

namespace Host

/-- The hook table is what it was. -/
def SparesTable (p q : Host ν) : Prop := q.slots = p.slots ∧ q.table = p.table

/-- Aloof code leaves the hook table alone. -/
theorem sparesTable_carried :
    Carried (ν := ν) (.aloof fun _ => True) SparesTable where
  refl := fun _ => ⟨rfl, rfl⟩
  trans := fun _ _ _ hpq hqr => ⟨hqr.1.trans hpq.1, hqr.2.trans hpq.2⟩
  note := fun _ _ => ⟨rfl, rfl⟩
  setInit := fun _ _ _ => ⟨rfl, rfl⟩
  answer := by
    intro p q hq
    cases q with
    | remove g => exact absurd rfl (hq.1 g)
    | removeModule moduleId => exact absurd rfl (hq.2 moduleId)
    | setForm m form => exact ⟨rfl, rfl⟩
    | deoptimize m => exact ⟨(p.idle_deoptimize m).slots, (p.idle_deoptimize m).table⟩
    | enterApp => exact ⟨rfl, rfl⟩
    | count c => exact ⟨rfl, rfl⟩
    | look => exact ⟨rfl, rfl⟩
  redirect := fun _ _ _ _ _ hq => redirect_eq_ok hq ▸ ⟨rfl, rfl⟩
  install := fun hmay => hmay.elim

theorem SparesTable.onto_eq {p q : Host ν} (h : p.SparesTable q) : p.onto q = q := by
  rw [onto, ← h.1, ← h.2]

end Host

namespace HookContext

variable {ctx : HookContext} {r : InitRecord} {p : Host ν}

/-- Hooks that are aloof leave the code in the process so. -/
theorem within_upholds (ctx : HookContext) (depth : Nat) :
    ctx.Upholds (.aloof fun _ => True) (Host.enter depth)
      fun _ (p : Host ν) => p.Within (.aloof fun _ => True) where
  note := fun _ _ _ hp => hp.same (fun _ => rfl) rfl rfl
  called := fun _ _ _ _ _ hcall hp => (Host.callBaseWith_carries Host.sparesTable_carried
    (Host.enter_carries Host.sparesTable_carried depth) hcall hp).1
  refused := by
    intro _ p m h err q hh hq hp
    have hinstalled := hp.install m hh ctx.priority ctx.moduleId
    rwa [hq] at hinstalled
  installed := by
    intro _ p m h g q hh hq hp
    have hinstalled := hp.install m hh ctx.priority ctx.moduleId
    rwa [hq] at hinstalled

/-- **A callback is a row of requests**, to whatever end it comes, if the hooks
it installs and the code in the process are aloof: all that happens in between
leaves the hook table alone. -/
theorem run_asks {depth : Nat} (init : Init ν) (hinit : init.Within (.aloof fun _ => True))
    (hp : p.Within (.aloof fun _ => True)) {a : (InitEnd × InitRecord) × Host ν}
    (h : ctx.run (Host.enter depth) init r p = some a) :
    ∃ steps, (ctx.askAll steps r p).2 = (a.1.2, a.2) := by
  have hupholds := ctx.within_upholds (ν := ν) depth
  induction init generalizing r p with
  | finish ended =>
    cases h
    exact ⟨[], rfl⟩
  | note n k ih =>
    obtain ⟨steps, hsteps⟩ := ih hinit (hupholds.note [] p n hp) h
    exact ⟨.meanwhile (p.addNote n) :: steps, hsteps⟩
  | resolve d k ih => exact ih _ (hinit _) hp h
  | hook d hk k ih =>
    obtain ⟨steps, hsteps⟩ := ih _ (hinit.2 _) (hook_upholds hupholds hinit.1 d hp) h
    exact ⟨.ask (.hook d hk) :: steps, hsteps⟩
  | hookMethod m hk k ih =>
    obtain ⟨steps, hsteps⟩ := ih _ (hinit.2 _) (hookMethod_upholds hupholds hinit.1 m hp) h
    exact ⟨.ask (.hookMethod m hk) :: steps, hsteps⟩
  | hookAll c n hk k ih =>
    obtain ⟨steps, hsteps⟩ := ih _ (hinit.2 _) (hookAll_upholds hupholds hinit.1 c n hp) h
    exact ⟨.ask (.hookAll c n hk) :: steps, hsteps⟩
  | callBase g c k ih =>
    obtain ⟨b, hb, hr⟩ := Option.bind_eq_some_iff.mp h
    obtain ⟨hq, hspares⟩ := Host.callBaseWith_carries Host.sparesTable_carried
      (Host.enter_carries Host.sparesTable_carried depth) hb hp
    obtain ⟨steps, hsteps⟩ := ih _ (hinit _) hq hr
    refine ⟨.meanwhile b.2 :: steps, ?_⟩
    rw [askAll, hspares.onto_eq]
    exact hsteps
  | look k ih => exact ih _ _ _ (hinit _ _ _) hp h

/-! ## The record -/

/-- What a context's record says of a row of requests that found the process
`p` and left the process `q`. -/
structure Recorded (ctx : HookContext) (p : Host ν) (asked : List (Asked ν)) (r : InitRecord)
    (q : Host ν) : Prop where
  /-- The recorded handles are those of the layers that came of the requests. -/
  installed : r.installed = (ctx.gained asked).map (·.handle)
  /-- They stand in the order of install. -/
  rising : r.installed.Pairwise fun a b => a.raw < b.raw
  /-- Nobody had any of them before. -/
  fresh : ∀ g ∈ r.installed, p.table.methodOf? g = none
  /-- They are the handles that have become live, each on its layer's method. -/
  live : q.table.live = p.table.live ++ (ctx.gained asked).map fun l => (l.handle, l.method)
  tagged : ∀ l ∈ ctx.gained asked, l.moduleId = ctx.moduleId ∧ l.priority = ctx.priority
  /-- The layers with these handles are those that came, in their order. -/
  own : ∀ m, (q.layers m).filter (·.handle ∈ r.installed)
    = (ctx.gained asked).filter (·.method = m)
  /-- All others are those that were there, in their order. -/
  kept : ∀ m, (q.layers m).filter (·.handle ∉ r.installed) = p.layers m
  others : ∀ m, (q.layers m).filter (·.moduleId ≠ ctx.moduleId)
    = (p.layers m).filter (·.moduleId ≠ ctx.moduleId)
  /-- Each target of each request was attempted once. -/
  attempted : ∀ x ∈ asked, (ctx.tried x).map (·.target) = x.request.targets x.process
  /-- Each target of which nothing came is one diagnostic, under its label. -/
  diagnostics : r.diagnostics = (ctx.triedAll asked).filterMap (·.diagnostic?)
  answers : ∀ x ∈ asked, x.request.Concludes (ctx.tried x) x.answer

theorem tagged_layer {a : Attempt ν} {l : Layer ν} (h : a.layer? ctx = some l) :
    l.moduleId = ctx.moduleId ∧ l.priority = ctx.priority := by
  unfold Attempt.layer? at h
  split at h
  · cases h
    exact ⟨rfl, rfl⟩
  · cases h

/-- **A module's context records everything it did**, whatever it is asked for
and whatever the runtime becomes between two requests. -/
theorem askAll_recorded (ctx : HookContext) (steps : List (ContextStep ν)) (hp : p.Tabled) :
    let a := ctx.askAll steps {} p
    ctx.Recorded p a.1 a.2.1 a.2.2 := by
  intro a
  have hregular := hp.regular
  obtain ⟨hrecord, hhandles, hgains, hanswers⟩ := askAll_gains ctx hregular steps {}
  have htagged : ∀ l ∈ ctx.gained a.1, l.moduleId = ctx.moduleId ∧ l.priority = ctx.priority := by
    intro l hl
    obtain ⟨x, -, hx⟩ := List.mem_filterMap.mp hl
    exact tagged_layer hx
  have hinstalled : a.2.1.installed = (ctx.gained a.1).map (·.handle) := by
    rw [hrecord, ← hhandles]
    exact List.nil_append _
  refine {
    installed := hinstalled
    rising := ?_
    fresh := ?_
    live := hgains.live
    tagged := htagged
    own := ?_
    kept := ?_
    others := ?_
    attempted := fun x _ => map_target_attempts ctx _ _ _
    diagnostics := ?_
    answers := hanswers }
  · rw [hinstalled, List.pairwise_map]
    refine hgains.rising.imp_of_mem fun {b c} hb hc hlt => ?_
    rwa [hgains.numbered b hb, hgains.numbered c hc]
  · intro g hg
    rw [hinstalled] at hg
    obtain ⟨l, hl, rfl⟩ := List.mem_map.mp hg
    exact hgains.fresh hregular hl
  · rw [hinstalled]
    exact hgains.own hregular fun l hl => (htagged l hl).2
  · rw [hinstalled]
    exact hgains.kept hregular
  · exact hgains.filter_eq hregular fun l hl => decide_eq_false (not_not_intro (htagged l hl).1)
  · rw [hrecord]
    exact List.nil_append _

/-- Three overloads of one method, of which one is sealed. -/
def overloads : Host Unit where
  methods := [
    { info := { id := ⟨1⟩, className := "A", name := "f" }
      entry := .body fun _ => .finish (.ok .null) },
    { info := { id := ⟨2⟩, className := "A", name := "f", params := ["int"], flags := ⟨32⟩ }
      entry := .body fun _ => .finish (.ok .null) },
    { info := { id := ⟨3⟩, className := "A", name := "f", params := ["long"] }
      entry := .body fun _ => .finish (.ok .null) }]

/-- A module asks for a method that there is not, for all overloads of another,
the first of which has a layer already, and for one that there is no more. -/
theorem askAll_recorded_refused :
    let p := (overloads.perform (.install ⟨1⟩ (Host.answering 1) 0 "other")).2
    let ctx : HookContext := { moduleId := "picky", priority := 0, app := {} }
    let a := ctx.askAll [
      .ask (.hook "A#g()" (Host.answering 2)), .ask (.hookAll "A" "f" (Host.answering 3)),
      .meanwhile {}, .ask (.hookMethod ⟨3⟩ (Host.answering 4))] {} p
    p.Tabled ∧ ctx.Recorded p a.1 a.2.1 a.2.2 ∧
      a.2.1.installed = [⟨2⟩, ⟨3⟩] ∧
      a.2.1.diagnostics.map (·.method) = ["A#g()", "A#f(int)", "m#3"] := by
  have hp : (overloads.perform (.install ⟨1⟩ (Host.answering 1) 0 "other")).2.Tabled :=
    .operated (.empty rfl rfl) _
  exact ⟨hp, askAll_recorded _ _ hp, by decide +kernel, by decide +kernel⟩

end HookContext

end Interpose
