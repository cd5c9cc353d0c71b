/-
Interpose.Proofs.Daemon.Changes — a request for a change is answered whole or not at all.

A request can be refused in three places: where it is understood, where the
registry makes the change, and where the next document is saved. What it
is refused for depends on the request, then on the registry, then on the
disk, in this order; and wherever it is refused, the daemon is left as it
was. Only behind the last of the three is anything told.

Main statement: `Daemon.mutateRegistry_decided`.
-/
import Interpose.Daemon.Manager
import Interpose.Proofs.Registry.Life

namespace Interpose

open Registry (Document Fit Mutation MutationFault StoreFault)

/-! ## Requests -/

namespace MutationOp

/-- The module a request names. -/
def moduleId : MutationOp → String
  | install m => m.moduleId
  | uninstall r | enable r | disable r => r.moduleId
  | setScope e => e.moduleId
  | setPriority e => e.moduleId

/-- What a request asks for, in a word. -/
def verb : MutationOp → String
  | install _ => "install"
  | uninstall _ => "uninstall"
  | enable _ => "enable"
  | disable _ => "disable"
  | setScope _ => "set_scope"
  | setPriority _ => "set_priority"

/-- Nothing can be made of such a request, whatever is registered. -/
def IllFormed : MutationOp → Prop
  | install m => Text.allBlank m.moduleId.toList = true ∨ m.entryPoints = [] ∨
      ∃ e ∈ m.entryPoints, Text.allBlank e.codePath.toList = true
  | setScope e => (e.mode ≠ 0 ∧ e.mode ≠ 1 ∧ e.mode ≠ 2) ∨ e.scope = none ∨ e.moduleId = ""
  | uninstall r | enable r | disable r => r.moduleId = ""
  | setPriority e => e.moduleId = ""

/-- The module that is to be changed is not there. -/
def Unregistered (d : Document) : MutationOp → Prop
  | install _ => False
  | op => d.get? op.moduleId = none

end MutationOp

namespace MutationRequest

/-- A request without an operation is ill-formed too. -/
def IllFormed (r : MutationRequest) : Prop := ∀ op, r.op = some op → op.IllFormed

def Unregistered (d : Document) (r : MutationRequest) : Prop :=
  ∃ op, r.op = some op ∧ op.Unregistered d

end MutationRequest

/-! ## Understanding a request -/

namespace Daemon

variable {op : MutationOp} {m : Mutation} {e : CallFault}

theorem fit_ofInfo {m : ModuleInfo} : Fit (.ofInfo m) ↔ ¬ (MutationOp.install m).IllFormed := by
  constructor
  · rintro ⟨hid, hentries, hpaths⟩ (hblank | hnone | ⟨e, he, hblank⟩)
    · exact absurd hblank (Bool.eq_false_iff.mp hid)
    · exact hentries hnone
    · exact absurd hblank (Bool.eq_false_iff.mp (hpaths e he))
  · intro h
    refine ⟨?_, fun hnone => h (.inr (.inl hnone)), fun e he => ?_⟩
    · exact Bool.eq_false_iff.mpr fun hblank => h (.inl hblank)
    · exact Bool.eq_false_iff.mpr fun hblank => h (.inr (.inr ⟨e, he, hblank⟩))

theorem ofCode?_eq_none {n : Int32} : ScopeMode.ofCode? n = none ↔ n ≠ 0 ∧ n ≠ 1 ∧ n ≠ 2 := by
  rw [ScopeMode.ofCode?, List.find?_eq_none]
  simp [ScopeMode.code, eq_comm (b := n)]

/-- What an operation is understood as: a change of the module that it names,
unless it is ill-formed. An install is always understood; whether the module
is fit, the registry finds. -/
inductive Understood (op : MutationOp) : Except CallFault Mutation → Prop
  | refused {e : CallFault} (ill : op.IllFormed) (code : e.code = .invalidArgument) :
      Understood op (.error e)
  | change {m : Mutation} (named : m.moduleId = op.moduleId) (verb : m.verb = op.verb)
      (ill : op.IllFormed ↔ ∃ n, m = .install n ∧ ¬ Fit n)
      (missing : ∀ d, op.Unregistered d ↔ (∀ n, m ≠ .install n) ∧ d.get? m.moduleId = none) :
      Understood op (.ok m)

/-- An operation that needs nothing but the id of its module. -/
theorem Understood.needed {f : String → Mutation} (hill : op.IllFormed ↔ op.moduleId = "")
    (hmissing : ∀ d, op.Unregistered d ↔ d.get? op.moduleId = none)
    (hid : (f op.moduleId).moduleId = op.moduleId) (hverb : (f op.moduleId).verb = op.verb)
    (hnot : ∀ n, f op.moduleId ≠ .install n) :
    Understood op ((neededId op.moduleId).map f) := by
  by_cases hempty : op.moduleId = ""
  · rw [neededId, if_pos (by simpa using hempty)]
    exact .refused (hill.mpr hempty) rfl
  · rw [neededId, if_neg (by simpa using hempty)]
    refine .change hid hverb ⟨fun h => absurd (hill.mp h) hempty, ?_⟩ fun d => ?_
    · rintro ⟨n, hn, _⟩
      exact absurd hn (hnot n)
    · rw [hid, hmissing]
      exact ⟨fun h => ⟨hnot, h⟩, And.right⟩

theorem mutationOf_understood (op : MutationOp) : Understood op (mutationOf op) := by
  cases op with
  | install m =>
    refine .change rfl rfl ⟨fun h => ⟨_, rfl, fun hfit => fit_ofInfo.mp hfit h⟩, ?_⟩ fun d => ?_
    · rintro ⟨n, hn, hunfit⟩
      cases hn
      exact Classical.not_not.mp fun h => hunfit (fit_ofInfo.mpr h)
    · exact ⟨False.elim, fun h => h.1 _ rfl⟩
  | uninstall r => exact .needed .rfl (fun _ => .rfl) rfl rfl (by simp)
  | enable r => exact .needed .rfl (fun _ => .rfl) rfl rfl (by simp)
  | disable r => exact .needed .rfl (fun _ => .rfl) rfl rfl (by simp)
  | setPriority e =>
    exact .needed (f := (.setPriority · e.priority)) .rfl (fun _ => .rfl) rfl rfl (by simp)
  | setScope e =>
    obtain ⟨id, code, scope⟩ := e
    rw [mutationOf]
    cases hmode : ScopeMode.ofCode? code with
    | none => exact .refused (.inl (ofCode?_eq_none.mp hmode)) rfl
    | some mode =>
      have hknown : ¬(code ≠ 0 ∧ code ≠ 1 ∧ code ≠ 2) := by
        rw [← ofCode?_eq_none, hmode]
        simp
      cases scope with
      | none => exact .refused (.inr (.inl rfl)) rfl
      | some scope =>
        have hill : (MutationOp.setScope ⟨id, code, some scope⟩).IllFormed ↔ id = "" := by
          simp [MutationOp.IllFormed, hknown]
        exact .needed (f := (.setScope · mode (.ofWire scope))) hill (fun _ => .rfl) rfl rfl (by simp)

/-! ## Answering a request -/

variable {r : MutationRequest} {d d' : Daemon} {fault : Option StoreFault} {a : MutationAnswer}

/-- The code that a call failed with, unless it was answered. -/
def codeOf {α : Type} (a : Except CallFault α) : Option StatusCode :=
  match statusOf a with
  | .error s => some s.code
  | .ok _ => none

@[simp] theorem codeOf_error {α : Type} (e : CallFault) :
    codeOf (.error e : Except CallFault α) = some e.code := rfl

@[simp] theorem codeOf_ok {α : Type} (a : α) : codeOf (.ok a : Except CallFault α) = none := rfl

/-- Whether the store can be written now. -/
def Writes (fault : Option StoreFault) (d : Daemon) : Prop :=
  fault = none ∧ d.disk.Accepts d.store.path

/-- A daemon that is as it was, with the file of its store. Directories may
have been made that lead to this file. -/
structure Unchanged (d d' : Daemon) : Prop where
  same : d' = { d with disk := d'.disk }
  file : d'.disk.entry? d.store.path = d.disk.entry? d.store.path

/-- A change that was made, and was told to the client, to all who watch and to the log. -/
structure Made (op : MutationOp) (d d' : Daemon) (a : MutationAnswer) : Prop where
  next : ∃ m, mutationOf op = .ok m ∧ d.registry.current.next m = .ok d'.registry.current
  version : d'.version.toNat = d.version.toNat + 1
  answer : a = {
    registryVersion := d'.version
    touched := (d'.registry.current.get? op.moduleId).map Module.toInfo }
  absent : a.touched = none ↔ ∃ ref, op = .uninstall ref
  stored : d.store.Holds (some d'.registry.current) d'.disk
  bump : d'.registry.bumps = d.registry.bumps.send d'.version
  event : d'.queue = d.queue.publish {
    ts := d.now
    moduleId := op.moduleId
    kind := .registryMutated
    detail := op.verb ++ " " ++ op.moduleId ++ " -> v" ++ toString d'.version.toNat }

/-- What a request can come to, by what is wrong first. -/
inductive Verdict (fault : Option StoreFault) (r : MutationRequest) (d : Daemon) :
    Except CallFault MutationAnswer × Daemon → Prop
  | invalid {e : CallFault} {d' : Daemon} (ill : r.IllFormed) (code : e.code = .invalidArgument)
      (same : Unchanged d d') : Verdict fault r d (.error e, d')
  | missing {e : CallFault} {d' : Daemon} (well : ¬ r.IllFormed)
      (missing : r.Unregistered d.registry.current) (code : e.code = .notFound)
      (same : Unchanged d d') : Verdict fault r d (.error e, d')
  | unsaved {e : CallFault} {d' : Daemon} (well : ¬ r.IllFormed)
      (there : ¬ r.Unregistered d.registry.current) (fails : ¬ Writes fault d)
      (code : e.code = .internal) (same : Unchanged d d') : Verdict fault r d (.error e, d')
  | made {a : MutationAnswer} {d' : Daemon} {op : MutationOp} (well : ¬ r.IllFormed)
      (there : ¬ r.Unregistered d.registry.current) (writes : Writes fault d)
      (asked : r.op = some op) (made : Made op d d' a) : Verdict fault r d (.ok a, d')

/-- Only an uninstall leaves nothing of the module it names. -/
theorem get?_next_eq_none {x x' : Document} (h : x.next m = .ok x') :
    x'.get? m.moduleId = none ↔ ∃ id, m = .uninstall id := by
  cases hget : x.get? m.moduleId with
  | none =>
    obtain ⟨n, rfl, _, _, hnew⟩ := Document.get?_next_of_none h hget
    rw [show (Mutation.install n).moduleId = n.id from rfl, hnew]
    simp
  | some old =>
    rw [(Document.get?_next_of_some h hget).1]
    cases m <;> simp [Mutation.edit]

theorem isUninstall_iff (hverb : m.verb = op.verb) :
    (∃ id, m = .uninstall id) ↔ ∃ ref, op = .uninstall ref := by
  cases m <;> cases op <;> simp [Mutation.verb, MutationOp.verb] at hverb ⊢

theorem illFormed_of_op (h : r.op = some op) : r.IllFormed ↔ op.IllFormed := by
  simp [MutationRequest.IllFormed, h]

theorem unregistered_of_op {x : Document} (h : r.op = some op) :
    r.Unregistered x ↔ op.Unregistered x := by
  simp [MutationRequest.Unregistered, h]

/-! ### Making a change -/

section

variable {save : Document → Disk → Except StoreFault Unit × Disk} {next : Document} {disk : Disk}

theorem mutateWith_refused {why : Registry.Refusal} (h : d.registry.current.next m = .error why) :
    d.mutateWith save m = (.error (.mutation (.refused why)), d) := by
  rw [mutateWith, Registry.Live.mutateWith, h]

theorem mutateWith_unsaved {e : StoreFault} (h : d.registry.current.next m = .ok next)
    (hsave : save next d.disk = (.error e, disk)) :
    d.mutateWith save m = (.error (.mutation (.persist e)), { d with disk }) := by
  simp only [mutateWith, Registry.Live.mutateWith, h, hsave]

theorem mutateWith_saved (h : d.registry.current.next m = .ok next)
    (hsave : save next d.disk = (.ok (), disk)) :
    d.mutateWith save m =
      (.ok { registryVersion := next.version, touched := (next.get? m.moduleId).map Module.toInfo },
        Daemon.publish { d with
          disk
          registry := { d.registry with
            current := next
            bumps := d.registry.bumps.send next.version } } (changed d.now m next.version)) := by
  simp only [mutateWith, Registry.Live.mutateWith, h, hsave]
  rfl

end

/-- **What was saved is told as it was made.** -/
theorem made_of_saved {next : Document} {disk : Disk}
    (hroom : d.version.toNat + 1 < UInt64.size) (hm : mutationOf op = .ok m)
    (named : m.moduleId = op.moduleId) (verb : m.verb = op.verb)
    (hnext : d.registry.current.next m = .ok next)
    (hsave : d.store.saveUnless fault next d.disk = (.ok (), disk)) :
    ∃ a d', d.mutateWith (d.store.saveUnless fault) m = (.ok a, d') ∧ Made op d d' a := by
  refine ⟨_, _, mutateWith_saved hnext hsave, {
    next := ⟨m, hm, hnext⟩
    version := ?_
    answer := ?_
    absent := ?_
    stored := Registry.World.saveUnless_ok hsave
    bump := rfl
    event := ?_ }⟩
  · show next.version.toNat = _
    rw [Document.version_next hnext, UInt64.toNat_add, UInt64.toNat_one]
    exact Nat.mod_eq_of_lt hroom
  · rw [← named]
    rfl
  · rw [← isUninstall_iff verb, ← get?_next_eq_none hnext]
    exact Option.map_eq_none_iff
  · rw [← named, ← verb]
    rfl

/-- **A request is refused for the first thing that is wrong, or it is made.** -/
theorem mutateRegistryWith_verdict (r : MutationRequest) (d : Daemon) (fault : Option StoreFault)
    (hroom : d.version.toNat + 1 < UInt64.size) :
    Verdict fault r d (d.mutateRegistryWith (d.store.saveUnless fault) r) := by
  have hself : Unchanged d d := ⟨rfl, rfl⟩
  rw [mutateRegistryWith]
  cases hop : r.op with
  | none => exact .invalid (by simp [MutationRequest.IllFormed, hop]) rfl hself
  | some op =>
    have hill := illFormed_of_op hop
    have hmissing := unregistered_of_op (x := d.registry.current) hop
    rw [Option.elim_some]
    cases hm : mutationOf op with
    | error e =>
      cases hm ▸ mutationOf_understood op with
      | refused ill code => exact .invalid (hill.mpr ill) code hself
    | ok m =>
      cases hm ▸ mutationOf_understood op with
      | change named verb ill missing =>
      rw [ill] at hill
      rw [missing] at hmissing
      dsimp only
      cases hnext : d.registry.current.next m with
      | error why =>
        rw [mutateWith_refused hnext]
        rcases Document.next_error_cases hnext with ⟨n, unfit, hn, hunfit, rfl⟩ | ⟨hnot, hnone, rfl⟩
        · exact .invalid (hill.mpr ⟨n, hn, hunfit⟩) rfl hself
        · have hwell : ¬ r.IllFormed := fun h => by
            obtain ⟨n, hn, _⟩ := hill.mp h
            exact hnot n hn
          exact .missing hwell (hmissing.mpr ⟨hnot, hnone⟩) rfl hself
      | ok next =>
        obtain ⟨hfit, hthere⟩ := Document.next_isOk.mp ⟨next, hnext⟩
        have hwell : ¬ r.IllFormed := fun h => by
          obtain ⟨n, hn, hunfit⟩ := hill.mp h
          exact hunfit (hfit n hn)
        have hregistered : ¬ r.Unregistered d.registry.current := fun h => by
          obtain ⟨hnot, hnone⟩ := hmissing.mp h
          exact hthere hnot hnone
        rcases hsave : d.store.saveUnless fault next d.disk with ⟨_ | _, disk⟩
        · have hfails : ¬ Writes fault d := fun h => by
            obtain ⟨disk', hok⟩ := Registry.World.saveUnless_isOk (d := next).mpr h
            rw [hsave] at hok
            cases hok
          rw [mutateWith_unsaved hnext hsave]
          exact .unsaved hwell hregistered hfails rfl ⟨rfl, (Registry.World.saveUnless_error hsave).1⟩
        · obtain ⟨a, d', heq, hmade⟩ := made_of_saved hroom hm named verb hnext hsave
          rw [heq]
          exact .made hwell hregistered (Registry.World.saveUnless_isOk.mp ⟨disk, hsave⟩) hop hmade

/-! ## The law -/

/-- What a request comes to, told from the answer and from the daemon afterwards. -/
structure Decided (fault : Option StoreFault) (r : MutationRequest) (d : Daemon)
    (p : Except CallFault MutationAnswer × Daemon) : Prop where
  invalid : codeOf p.1 = some .invalidArgument ↔ r.IllFormed
  missing : codeOf p.1 = some .notFound ↔
    ¬ r.IllFormed ∧ r.Unregistered d.registry.current
  unsaved : codeOf p.1 = some .internal ↔
    ¬ r.IllFormed ∧ ¬ r.Unregistered d.registry.current ∧ ¬ Writes fault d
  /-- There are no other failures. -/
  answered : codeOf p.1 = none ↔
    ¬ r.IllFormed ∧ ¬ r.Unregistered d.registry.current ∧ Writes fault d
  failed : ∀ e, p.1 = .error e → Unchanged d p.2
  made : ∀ a, p.1 = .ok a → ∃ op, r.op = some op ∧ Made op d p.2 a

theorem Verdict.decided {p : Except CallFault MutationAnswer × Daemon}
    (h : Verdict fault r d p) : Decided fault r d p := by
  cases h with
  | invalid ill code same =>
    refine ⟨?_, ?_, ?_, ?_, fun _ _ => same, fun _ h => (nomatch h)⟩ <;> simp [code, ill]
  | missing well missing code same =>
    refine ⟨?_, ?_, ?_, ?_, fun _ _ => same, fun _ h => (nomatch h)⟩ <;>
      simp [code, well, missing]
  | unsaved well there fails code same =>
    refine ⟨?_, ?_, ?_, ?_, fun _ _ => same, fun _ h => (nomatch h)⟩ <;>
      simp [code, well, there, fails]
  | made well there writes asked made =>
    refine ⟨?_, ?_, ?_, ?_, fun _ h => (nomatch h), fun a h => ⟨_, asked, ?_⟩⟩
    · simp [well]
    · simp [well, there]
    · simp [well, there, writes]
    · simp [well, there, writes]
    · cases h
      exact made

/-- **A request for a change is answered whole or not at all**, in every state
of the daemon that has a version left, and whether or not the store can be
written: what it fails with is decided by the first thing that is wrong, a
failure changes nothing, and a change that is made is told once to everybody. -/
theorem mutateRegistry_decided (r : MutationRequest) (d : Daemon) (fault : Option StoreFault)
    (hroom : d.version.toNat + 1 < UInt64.size) :
    Decided fault r d (d.mutateRegistryWith (d.store.saveUnless fault) r) :=
  (mutateRegistryWith_verdict r d fault hroom).decided

/-- A module that is there is to be confined to one application, and the store
cannot be written: the daemon fails by its own fault and is as it was. -/
theorem mutateRegistry_decided_unsaved :
    let hooks : Module := {
      id := "hooks", enabled := true, scope := .all, installSeq := 1
      entryPoints := [{ codePath := "hooks.so" }] }
    let d : Daemon := { boot default { tokens := { name := toString } } with
      registry := { current := {
        version := 1
        nextSeq := 1
        modules := Keyed.empty.insert "hooks" hooks } } }
    let r : MutationRequest := { op := some (.setScope {
      moduleId := "hooks", mode := 0, scope := some { targets := [{ appId := "app" }] } }) }
    let fault : StoreFault := .io .notADirectory
    let p := d.mutateRegistryWith (d.store.saveUnless (some fault)) r
    d.version.toNat + 1 < UInt64.size ∧ Decided (some fault) r d p ∧
      codeOf p.1 = some .internal ∧ p.2.registry = d.registry := by
  intro hooks d r fault p
  have hroom : d.version.toNat + 1 < UInt64.size := by decide
  have h : Decided (some fault) r d p := mutateRegistry_decided r d (some fault) hroom
  have hwell : ¬ r.IllFormed := by
    rw [illFormed_of_op rfl]
    simp [MutationOp.IllFormed]
  have hthere : ¬ r.Unregistered d.registry.current := by
    rw [unregistered_of_op rfl]
    show ¬ (Keyed.empty.insert "hooks" hooks).get? "hooks" = none
    simp [Keyed.get?_insert]
  have hcode : codeOf p.1 = some .internal := h.unsaved.mpr ⟨hwell, hthere, fun hw => (nomatch hw.1)⟩
  refine ⟨hroom, h, hcode, ?_⟩
  cases hp : p.1 with
  | error e => rw [(h.failed e hp).same]
  | ok a => simp [hp] at hcode

/-- Where nothing keeps the store from being written, this is the request as the
daemon answers it. -/
example (r : MutationRequest) (d : Daemon) :
    d.mutateRegistryWith (d.store.saveUnless none) r = d.mutateRegistry r := rfl

end Daemon

end Interpose
