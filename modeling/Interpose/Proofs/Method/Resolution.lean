/-
Interpose.Proofs.Method.Resolution — a descriptor names the one method that fits it.

A process is told of methods and of classes with an initialiser, in any
order, and in between its code runs and modules come and go: none of that
changes what is declared (`Declares.methods`). A descriptor is answered by
how many of the declared methods it fits. If it is one, that is the answer;
none and several are told apart, and several are listed. The order of the
declarations shows in the order of that list and in nothing else.

A method that is declared twice is two methods here, which no descriptor can
tell apart. That is why methods are named by their places among the
declarations, and why a printed descriptor may be ambiguous all the same.

Main statement: `resolves_declared`.
-/
import Interpose.Proofs.Apply.Carrying
import Interpose.Proofs.Method.Grammar

namespace Interpose

variable {ν σ : Type}

/-! ## Signatures -/

/-- What overloads are told apart by. -/
structure Signature where
  className : String
  name : String
  params : List String
  deriving DecidableEq

/-- The descriptor that asks for exactly this signature. -/
def Signature.descriptor (s : Signature) : MethodDescriptor where
  className := s.className
  name := s.name
  params := some s.params

def MethodInfo.signature (m : MethodInfo) : Signature where
  className := m.className
  name := m.name
  params := m.params

/-- The class and the name are the descriptor's, and so are the parameters, if it lists any. -/
def MethodDescriptor.Fits (d : MethodDescriptor) (s : Signature) : Prop :=
  s.className = d.className ∧ s.name = d.name ∧ (d.params = none ∨ d.params = some s.params)

instance (d : MethodDescriptor) (s : Signature) : Decidable (d.Fits s) := by
  unfold MethodDescriptor.Fits; infer_instance

/-- A descriptor with a list fits one signature. -/
theorem Signature.fits_descriptor {s t : Signature} : s.descriptor.Fits t ↔ t = s := by
  simp only [MethodDescriptor.Fits, descriptor, reduceCtorEq, Option.some.injEq, false_or]
  exact ⟨fun ⟨hc, hn, hp⟩ => by cases t; cases s; simp_all, by rintro rfl; exact ⟨rfl, rfl, rfl⟩⟩

/-! ## Answers -/

namespace Declarations

/-- The methods that a descriptor fits, in order of declaration. -/
def fitting (ds : Declarations) (d : MethodDescriptor) : List MethodInfo :=
  ds.methods.filter fun m => d.Fits m.signature

theorem candidates_eq (ds : Declarations) (d : MethodDescriptor) :
    (d.params.elim (ds.named d.className d.name) fun ps =>
      (ds.named d.className d.name).filter (·.params == ps)) = ds.fitting d := by
  cases hps : d.params with
  | none =>
    refine List.filter_congr fun m _ => ?_
    rw [Bool.eq_iff_iff]
    simp [MethodDescriptor.Fits, MethodInfo.signature, hps]
  | some ps =>
    rw [Option.elim_some, named, List.filter_filter, fitting]
    refine List.filter_congr fun m _ => ?_
    rw [Bool.eq_iff_iff]
    simp only [MethodDescriptor.Fits, MethodInfo.signature, hps, Bool.and_eq_true, beq_iff_eq,
      decide_eq_true_eq, reduceCtorEq, Option.some.injEq, false_or]
    exact ⟨fun ⟨hp, hc, hn⟩ => ⟨hc, hn, hp.symm⟩, fun ⟨hc, hn, hp⟩ => ⟨hp.symm, hc, hn⟩⟩

theorem classExists_iff {ds : Declarations} {c : String} :
    ds.classExists c = true ↔ (∃ m ∈ ds.methods, m.className = c) ∨ c ∈ ds.bareClasses := by
  simp [classExists]

/-- What is said when a descriptor fits nothing. -/
def missing (ds : Declarations) (d : MethodDescriptor) : ResolveError :=
  if ds.classExists d.className then .notFound d.text else .noClass d.className

/-- **One method that fits is the answer; none and several are errors.** -/
theorem resolve_eq (ds : Declarations) (d : MethodDescriptor) :
    ds.resolve d = match ds.fitting d with
      | [] => .error (ds.missing d)
      | [m] => .ok m.id
      | ms => .error (.ambiguous d.text (ms.map (·.descriptor))) := by
  dsimp only [resolve]
  rw [candidates_eq, missing]
  cases hexists : ds.classExists d.className with
  | true => rfl
  | false =>
    -- of a class that is not there no method is declared
    have hnone : ds.fitting d = [] := by
      refine List.filter_eq_nil_iff.mpr fun m hm hfits => ?_
      have hclass := (of_decide_eq_true hfits).1
      rw [← Bool.not_eq_true, classExists_iff] at hexists
      exact hexists (.inl ⟨m, hm, hclass⟩)
    rw [hnone]
    rfl

end Declarations

/-! ## Declaring -/

/-- A method as it is declared. -/
structure MethodDeclaration (ν : Type) extends Signature where
  ret : String
  flags : MethodFlags
  form : ExecForm
  body : Body ν

/-- What a process can be told of. -/
inductive Declaration (ν : Type) where
  | method (m : MethodDeclaration ν)
  | initializer (className : String) (init : Program ν .plain)

namespace Declaration

/-- The class that is there from then on. -/
def className : Declaration ν → String
  | method m => m.className
  | initializer className _ => className

def method? : Declaration ν → Option (MethodDeclaration ν)
  | method m => some m
  | initializer .. => none

end Declaration

/-- The methods among what is declared, in order. -/
def declaredMethods (ds : List (Declaration ν)) : List (MethodDeclaration ν) :=
  ds.filterMap (·.method?)

/-- The number of the method at a place. -/
def MethodId.nth (i : Nat) : MethodId := ⟨UInt64.ofNat (i + 1)⟩

/-- What is known of a method under its number. -/
def MethodDeclaration.info (m : MethodDeclaration ν) (id : MethodId) : MethodInfo where
  id := id
  className := m.className
  name := m.name
  params := m.params
  ret := m.ret
  flags := m.flags

namespace Host

def declareMethod (p : Host ν) (m : MethodDeclaration ν) : Host ν :=
  p.declare m.className m.name m.params m.ret m.flags m.form m.body

/-- A process that has been told of all this and of nothing else. Meanwhile code
has run, and modules have been applied and taken out again. -/
inductive Declares : Host ν → List (Declaration ν) → Prop
  | nothing {p : Host ν} (methods : p.methods = []) (inits : p.classInits = []) : Declares p []
  | method {p : Host ν} {ds : List (Declaration ν)} (h : Declares p ds) (m : MethodDeclaration ν) :
      Declares (p.declareMethod m) (ds ++ [.method m])
  | initializer {p : Host ν} {ds : List (Declaration ν)} (h : Declares p ds) (className : String)
      (init : Program ν .plain) :
      Declares (p.setClassInit className init) (ds ++ [.initializer className init])
  | ran {p q : Host ν} {ds : List (Declaration ν)} (h : Declares p ds) {depth : Nat}
      {code : Program ν .plain} {r : Outcome} (run : exec (enter depth) code () p = some (r, q)) :
      Declares q ds
  | applied {p q : Host ν} {ds : List (Declaration ν)} (h : Declares p ds) {σ : Type}
      {source : Source ν σ} {modules : List ModuleInfo} {session : ProcessSession} {s : σ}
      {r : (ApplyEnd × ProcessSession) × σ}
      (run : p.applyFrom source modules session s = some (r, q)) : Declares q ds
  | removed {p : Host ν} {ds : List (Declaration ν)} (h : Declares p ds)
      (session : ProcessSession) (moduleId : String) :
      Declares (session.removeModule moduleId p).2.2 ds

theorem HooksOnly.declarations {p q : Host ν} (h : HooksOnly p q) :
    q.declarations = p.declarations := by
  rw [Host.declarations, Host.declarations, h.infos, h.classInits]

/-- No request declares anything. -/
theorem declarations_carried :
    Carried (ν := ν) .any fun p q => q.declarations = p.declarations where
  refl := fun _ => rfl
  trans := fun _ _ _ hpq hqr => hqr.trans hpq
  note := fun _ _ => rfl
  setInit := fun _ _ _ => rfl
  answer := by
    intro p q _
    cases q with
    | remove h => exact (p.hooksOnly_remove h).declarations
    | removeModule moduleId => exact (p.hooksOnly_removeAll _).declarations
    | setForm m form =>
      have hinfos := p.map_info_modifyMethod m (fun x => { x with form }) fun _ => rfl
      show (p.setForm m form).declarations = _
      rw [declarations, setForm, hinfos]
      rfl
    | deoptimize m => exact (p.idle_deoptimize m).others.declarations
    | enterApp => rfl
    | count c => rfl
    | look => rfl
  redirect := by
    intro p m b q _ hq
    rw [redirect_eq_ok hq]
    exact (p.hooksOnly_setEntry m _).declarations
  install := fun _ p m hook priority moduleId =>
    (p.hooksOnly_install m hook priority moduleId).declarations

/-- What a process knows of what was declared, however the process has fared. -/
structure Knows (ds : List (Declaration ν)) (known : Declarations) : Prop where
  /-- Methods are numbered in the order of their declarations. -/
  methods : known.methods = (declaredMethods ds).mapIdx fun i m => m.info (.nth i)
  classes : ∀ c, known.classExists c = true ↔ ∃ x ∈ ds, x.className = c

/-- **Nothing is known but what was declared.** -/
theorem Declares.knows {p : Host ν} {ds : List (Declaration ν)} (h : p.Declares ds) :
    Knows ds p.declarations := by
  induction h with
  | nothing methods inits =>
    refine ⟨by simp [declarations, methods, declaredMethods], fun c => ?_⟩
    simp [Declarations.classExists_iff, declarations, methods, inits]
  | @method p ds _ m ih =>
    have hmethods : (p.declareMethod m).declarations.methods
        = p.declarations.methods ++ [m.info (.nth p.declarations.methods.length)] := by
      simp [declarations, declareMethod, declare, MethodDeclaration.info, MethodId.nth]
    have hbare : (p.declareMethod m).declarations.bareClasses = p.declarations.bareClasses := rfl
    refine ⟨?_, fun c => ?_⟩
    · have hnew : declaredMethods (ds ++ [.method m]) = declaredMethods ds ++ [m] :=
        List.filterMap_append
      rw [hmethods, ih.methods, hnew, List.mapIdx_concat, List.length_mapIdx]
    · have hclasses := ih.classes c
      rw [Declarations.classExists_iff] at hclasses ⊢
      simp only [hmethods, hbare, List.mem_append, or_and_right, exists_or, ← hclasses]
      simp [MethodDeclaration.info, Declaration.className, or_right_comm]
  | @initializer p ds _ className init ih =>
    refine ⟨?_, fun c => ?_⟩
    · have hsame : declaredMethods (ds ++ [.initializer className init]) = declaredMethods ds := by
        simp [declaredMethods, Declaration.method?]
      rw [hsame]
      exact ih.methods
    · have hclasses := ih.classes c
      have hbare : c ∈ (p.setClassInit className init).declarations.bareClasses ↔
          c ∈ p.declarations.bareClasses ∨ c = className := by
        by_cases hc : c = className <;> simp [declarations, setClassInit, hc]
      rw [Declarations.classExists_iff] at hclasses ⊢
      simp only [hbare, List.mem_append, or_and_right, exists_or, ← hclasses, ← or_assoc]
      simp [declarations, setClassInit, Declaration.className, eq_comm]
  | @ran p q ds _ depth code r run ih =>
    exact run_carries declarations_carried code run ▸ ih
  | applied _ run ih => exact applyFrom_carries declarations_carried _ _ _ run ▸ ih
  | @removed p ds _ session moduleId ih =>
    rw [removeModule_carries declarations_carried session moduleId p]
    exact ih

end Host

/-! ## Answers by what was declared -/

namespace Host.Knows

variable {ds : List (Declaration ν)} {known : Declarations} {d : MethodDescriptor}

/-- What fits is told by the signatures that were declared. -/
theorem signatures_fitting (h : Knows ds known) (d : MethodDescriptor) :
    (known.fitting d).map (·.signature)
      = ((declaredMethods ds).map (·.toSignature)).filter fun s => d.Fits s := by
  have hall : known.methods.map (·.signature) = (declaredMethods ds).map (·.toSignature) := by
    rw [h.methods]
    refine List.ext_getElem? fun i => ?_
    rw [List.getElem?_map, List.getElem?_mapIdx, List.getElem?_map, Option.map_map]
    rfl
  rw [← hall, List.filter_map]
  rfl

theorem length_fitting (h : Knows ds known) (d : MethodDescriptor) :
    (known.fitting d).length = (declaredMethods ds).countP fun x => d.Fits x.toSignature := by
  rw [← List.length_map, h.signatures_fitting, ← List.countP_eq_length_filter, List.countP_map]
  rfl

/-- What fits was declared at some place. -/
theorem mem_fitting (h : Knows ds known) {m : MethodInfo} :
    m ∈ known.fitting d ↔ ∃ i, ∃ x : MethodDeclaration ν, (declaredMethods ds)[i]? = some x ∧
      d.Fits x.toSignature ∧ m = x.info (.nth i) := by
  rw [Declarations.fitting, List.mem_filter, h.methods, List.mem_iff_getElem?]
  simp only [List.getElem?_mapIdx, Option.map_eq_some_iff, decide_eq_true_eq]
  constructor
  · rintro ⟨⟨i, x, hx, rfl⟩, hfits⟩
    exact ⟨i, x, hx, hfits, rfl⟩
  · rintro ⟨i, x, hx, hfits, rfl⟩
    exact ⟨⟨i, x, hx, rfl⟩, hfits⟩

/-- The descriptors of what fits, in the order of the declarations. -/
theorem descriptors_fitting (h : Knows ds known) (d : MethodDescriptor) :
    (known.fitting d).map (·.descriptor)
      = (((declaredMethods ds).map (·.toSignature)).filter fun s => d.Fits s).map
          (·.descriptor.text) := by
  rw [← h.signatures_fitting, List.map_map]
  rfl

/-! ### One, none, several -/

/-- The only method that fits is the answer. -/
theorem resolve_one (h : Knows ds known)
    (hone : (declaredMethods ds).countP (fun x => d.Fits x.toSignature) = 1) {i : Nat}
    {x : MethodDeclaration ν} (hx : (declaredMethods ds)[i]? = some x)
    (hfits : d.Fits x.toSignature) : known.resolve d = .ok (.nth i) := by
  rw [← h.length_fitting, List.length_eq_one_iff] at hone
  obtain ⟨m, hm⟩ := hone
  have hmem := h.mem_fitting.mpr ⟨i, x, hx, hfits, rfl⟩
  rw [hm, List.mem_singleton] at hmem
  rw [Declarations.resolve_eq, hm, ← hmem]
  rfl

theorem resolve_none (h : Knows ds known)
    (hnone : (declaredMethods ds).countP (fun x => d.Fits x.toSignature) = 0) :
    known.resolve d = .error (known.missing d) := by
  rw [← h.length_fitting, List.length_eq_zero_iff] at hnone
  rw [Declarations.resolve_eq, hnone]

theorem resolve_several (h : Knows ds known)
    (hmany : 2 ≤ (declaredMethods ds).countP fun x => d.Fits x.toSignature) :
    known.resolve d = .error (.ambiguous d.text
      ((((declaredMethods ds).map (·.toSignature)).filter fun s => d.Fits s).map
        (·.descriptor.text))) := by
  rw [← h.length_fitting] at hmany
  rw [Declarations.resolve_eq, ← h.descriptors_fitting]
  split
  next hnil => simp [hnil] at hmany
  next hone => simp [hone] at hmany
  next => rfl

/-- **There are no other answers** than these three. -/
theorem resolve_eq_ok_iff (h : Knows ds known) {id : MethodId} :
    known.resolve d = .ok id ↔
      (declaredMethods ds).countP (fun x => d.Fits x.toSignature) = 1 ∧
      ∃ i, ∃ x : MethodDeclaration ν, (declaredMethods ds)[i]? = some x ∧ d.Fits x.toSignature ∧
        id = .nth i := by
  constructor
  · intro hok
    rw [Declarations.resolve_eq] at hok
    split at hok
    next => cases hok
    next m hm =>
      cases hok
      obtain ⟨i, x, hx, hfits, rfl⟩ := h.mem_fitting.mp (hm ▸ List.mem_singleton_self m)
      exact ⟨by rw [← h.length_fitting, hm, List.length_singleton], i, x, hx, hfits, rfl⟩
    next => cases hok
  · rintro ⟨hone, i, x, hx, hfits, rfl⟩
    exact h.resolve_one hone hx hfits

theorem missing_eq (h : Knows ds known) (d : MethodDescriptor) : known.missing d =
    if ds.any (·.className = d.className) then .notFound d.text else .noClass d.className := by
  have hclass : known.classExists d.className = ds.any (·.className = d.className) := by
    rw [Bool.eq_iff_iff, h.classes]
    simp
  rw [Declarations.missing, hclass]

/-- A printed descriptor asks for the signature that was printed. -/
theorem resolveText_descriptor (known : Declarations) {x : MethodDeclaration ν}
    (hx : x.toSignature.descriptor.WellFormed) (id : MethodId) :
    known.resolveText (x.info id).descriptor = known.resolve x.toSignature.descriptor := by
  have hparse : MethodDescriptor.parse (x.info id).descriptor = .ok x.toSignature.descriptor :=
    hx.parse_text
  rw [Declarations.resolveText, hparse]
  rfl

end Host.Knows

/-- Two answers that name the same declaration, at whatever place it stands, or
refuse for the same reason, whatever the order of what they list. -/
inductive SameAnswer (ms ms' : List (MethodDeclaration ν)) :
    Except ResolveError MethodId → Except ResolveError MethodId → Prop
  | found {i j : Nat} {x : MethodDeclaration ν} (here : ms[i]? = some x) (there : ms'[j]? = some x) :
      SameAnswer ms ms' (.ok (.nth i)) (.ok (.nth j))
  | missing (e : ResolveError) : SameAnswer ms ms' (.error e) (.error e)
  | ambiguous (text : String) {names names' : List String} (perm : names.Perm names') :
      SameAnswer ms ms' (.error (.ambiguous text names)) (.error (.ambiguous text names'))

/-- **The order of the declarations makes no difference** but to the order of a list. -/
theorem Host.Knows.sameAnswer {ds ds' : List (Declaration ν)} {known known' : Declarations}
    (h : Knows ds known) (h' : Knows ds' known') (hperm : ds.Perm ds') (d : MethodDescriptor) :
    SameAnswer (declaredMethods ds) (declaredMethods ds') (known.resolve d) (known'.resolve d) := by
  have hmethods : (declaredMethods ds).Perm (declaredMethods ds') := hperm.filterMap _
  have hcount := hmethods.countP_eq fun x => d.Fits x.toSignature
  have htotal : (declaredMethods ds).countP (fun x => d.Fits x.toSignature) = 0 ∨
      (declaredMethods ds).countP (fun x => d.Fits x.toSignature) = 1 ∨
      2 ≤ (declaredMethods ds).countP fun x => d.Fits x.toSignature := by omega
  rcases htotal with hnone | hone | hmany
  · have hmissing : known'.missing d = known.missing d := by
      rw [h.missing_eq, h'.missing_eq, hperm.any_eq]
    rw [h.resolve_none hnone, h'.resolve_none (hcount ▸ hnone), hmissing]
    exact .missing _
  · obtain ⟨x, hx, hfits⟩ := List.countP_pos_iff.mp (hone ▸ Nat.one_pos)
    obtain ⟨i, hi⟩ := List.mem_iff_getElem?.mp hx
    obtain ⟨j, hj⟩ := List.mem_iff_getElem?.mp (hmethods.subset hx)
    have hfits := of_decide_eq_true hfits
    rw [h.resolve_one hone hi hfits, h'.resolve_one (hcount ▸ hone) hj hfits]
    exact .found hi hj
  · rw [h.resolve_several hmany, h'.resolve_several (hcount ▸ hmany)]
    exact .ambiguous _ (((hmethods.map _).filter _).map _)

/-- What a process answers to a descriptor that has been told of all this. -/
structure Answers (ds : List (Declaration ν)) (known : Declarations) (d : MethodDescriptor) :
    Prop where
  /-- A method is the answer exactly if it fits and no other does. -/
  found : ∀ id, known.resolve d = .ok id ↔
    (declaredMethods ds).countP (fun x => d.Fits x.toSignature) = 1 ∧
    ∃ i, ∃ x : MethodDeclaration ν, (declaredMethods ds)[i]? = some x ∧ d.Fits x.toSignature ∧
      id = .nth i
  none : (∀ x ∈ declaredMethods ds, ¬ d.Fits x.toSignature) → known.resolve d = .error
    (if ds.any (·.className = d.className) then .notFound d.text else .noClass d.className)
  several : 2 ≤ (declaredMethods ds).countP (fun x => d.Fits x.toSignature) →
    known.resolve d = .error (.ambiguous d.text
      ((((declaredMethods ds).map (·.toSignature)).filter fun s => d.Fits s).map
        (·.descriptor.text)))

/-- **Overloads are never guessed.** Whatever has been declared, in whatever
order and however often, and whatever has been done to the process since: a
descriptor comes to a method exactly if that is the only one it fits; if it
fits none it is said not to be found, and if it fits several, all of them are
listed. In another order the same declarations give the same answers, but
for the order of the list. The printed descriptor of a method whose parts
are identifiers comes to that method, unless the same one is declared again. -/
theorem resolves_declared {p : Host ν} {ds : List (Declaration ν)} (h : p.Declares ds) :
    (∀ d, Answers ds p.declarations d) ∧
    (∀ q ds', Host.Declares q ds' → ds.Perm ds' → ∀ d,
      SameAnswer (declaredMethods ds) (declaredMethods ds') (p.declarations.resolve d)
        (q.declarations.resolve d)) ∧
    ∀ i, ∀ x : MethodDeclaration ν, (declaredMethods ds)[i]? = some x →
      x.toSignature.descriptor.WellFormed →
        let text := (x.info (.nth i)).descriptor
        let same := (declaredMethods ds).countP fun y => y.toSignature = x.toSignature
        p.declarations.resolveText text
          = if same = 1 then .ok (.nth i) else .error (.ambiguous text (List.replicate same text)) := by
  have k := h.knows
  refine ⟨fun d => ⟨fun _ => k.resolve_eq_ok_iff, fun hnone => ?_, k.resolve_several⟩,
    fun q ds' h' hperm => k.sameAnswer h'.knows hperm, fun i x hx hwell => ?_⟩
  · have hzero : (declaredMethods ds).countP (fun x => d.Fits x.toSignature) = 0 :=
      List.countP_eq_zero.mpr fun x hx hfits => hnone x hx (of_decide_eq_true hfits)
    rw [k.resolve_none hzero, k.missing_eq]
  · intro text same
    have hself : x.toSignature.descriptor.Fits x.toSignature := Signature.fits_descriptor.mpr rfl
    have hsame : ((declaredMethods ds).countP fun y => x.toSignature.descriptor.Fits y.toSignature)
        = same := List.countP_congr fun y _ => by simp [Signature.fits_descriptor]
    have hpos : 0 < same := List.countP_pos_iff.mpr ⟨x, List.mem_of_getElem? hx, by simp⟩
    rw [Host.Knows.resolveText_descriptor _ hwell]
    split
    next hone => exact k.resolve_one (hsame ▸ hone) hx hself
    next hmany =>
      -- the list has this one signature, as often as it is declared
      have hlist : (((declaredMethods ds).map (·.toSignature)).filter fun s =>
          x.toSignature.descriptor.Fits s) = List.replicate same x.toSignature := by
        refine List.eq_replicate_iff.mpr ⟨?_, fun s hs => ?_⟩
        · rw [← List.countP_eq_length_filter, List.countP_map]
          exact hsame
        · exact Signature.fits_descriptor.mp (of_decide_eq_true (List.mem_filter.mp hs).2)
      rw [k.resolve_several (hsame ▸ (by omega : 2 ≤ same)), hlist, List.map_replicate]
      rfl

/-- A method that does nothing. -/
def idleMethod (params : List String) : MethodDeclaration Unit where
  className := "A"
  name := "f"
  params := params
  ret := "void"
  flags := {}
  form := .interpreted
  body := fun _ => .finish (.ok .null)

/-- One of two overloads is declared twice, and the other one is hooked: that one is
found, in another process under another number, and the doubled one is ambiguous. -/
theorem resolves_declared_doubled :
    let ds : List (Declaration Unit) :=
      [.method (idleMethod ["int"]), .method (idleMethod []), .method (idleMethod ["int"])]
    let ds' : List (Declaration Unit) :=
      [.method (idleMethod []), .method (idleMethod ["int"]), .method (idleMethod ["int"])]
    ∃ p q : Host Unit, p.Declares ds ∧ q.Declares ds' ∧ ds.Perm ds' ∧ p.layers ⟨2⟩ ≠ [] ∧
      p.declarations.resolve { className := "A", name := "f", params := some [] } = .ok ⟨2⟩ ∧
      q.declarations.resolve { className := "A", name := "f", params := some [] } = .ok ⟨1⟩ ∧
      p.declarations.resolveText "A#f(int)"
        = .error (.ambiguous "A#f(int)" ["A#f(int)", "A#f(int)"]) := by
  intro ds ds'
  let p₀ : Host Unit := ((({} : Host Unit).declareMethod (idleMethod ["int"])).declareMethod
    (idleMethod [])).declareMethod (idleMethod ["int"])
  let q : Host Unit := ((({} : Host Unit).declareMethod (idleMethod [])).declareMethod
    (idleMethod ["int"])).declareMethod (idleMethod ["int"])
  let hooking : Program Unit .plain :=
    .install ⟨2⟩ none (fun v => .proceed v.call.args .finish) 0 "m" fun _ => .finish (.ok .null)
  have hp₀ : p₀.Declares ds := (((Host.Declares.nothing rfl rfl).method _).method _).method _
  let hooked := (p₀.install ⟨2⟩ { run := fun v => .proceed v.call.args .finish } 0 "m").2
  have hrun : Host.exec (Host.enter 1) hooking () p₀ = some (.ok .null, hooked) := rfl
  have hp : hooked.Declares ds := hp₀.ran hrun
  have hq : q.Declares ds' := (((Host.Declares.nothing rfl rfl).method _).method _).method _
  have hwell : (idleMethod ["int"]).toSignature.descriptor.WellFormed :=
    ⟨isIdent_iff.mp (by decide), isIdent_iff.mp (by decide), fun ps hps => by
      cases hps
      exact List.forall_mem_singleton.mpr (isIdent_iff.mp (by decide))⟩
  have hfound := (resolves_declared hp).1 { className := "A", name := "f", params := some [] }
  have hfound' := (resolves_declared hq).1 { className := "A", name := "f", params := some [] }
  refine ⟨_, q, hp, hq, .swap _ _ _, by decide, ?_, ?_, ?_⟩
  · exact (hfound.found ⟨2⟩).mpr ⟨by decide, 1, idleMethod [], rfl, by decide, rfl⟩
  · exact (hfound'.found ⟨1⟩).mpr ⟨by decide, 0, idleMethod [], rfl, by decide, rfl⟩
  · exact (resolves_declared hp).2.2 0 (idleMethod ["int"]) rfl hwell

end Interpose
