/-
Interpose.Proofs.Apply.Twins — the same callback in two processes.

Two processes are twins when they declare the same methods and their
ledgers look alike, line by line. Handles, times, forms and notes may
differ: one of them may have seen modules come and go. A callback that
goes by the answers it gets, and not by the numbers in its handles
(`Init.Blind`), does the same in both and leaves twins behind.

A `Site` is a process with its ledger and with what has been recorded of
the callback that works on it. Each step is taken in two sites at once:
`installOn_twins` for one request, `run_twins` for a whole callback by
induction on it. Since a site is its own twin, what a step does in a
single process (`Site.Grown`) is said in the same place.
-/
import Interpose.Proofs.Hook.Verdict
import Interpose.Apply

namespace Interpose

variable {ν : Type}

/-! ## Callbacks that do not read handles -/

/-- A callback that asks for hooks and for nothing else, and goes by
whether it got them. -/
def Init.Blind : Init ν → Prop
  | .finish _ => True
  | .note _ k => k.Blind
  | .resolve _ k => ∀ a, (k a).Blind
  | .hook _ _ k | .hookMethod _ _ k =>
    (∀ a b, a.map (fun _ => ()) = b.map (fun _ => ()) → k a = k b) ∧ ∀ a, (k a).Blind
  | .hookAll _ _ _ k =>
    (∀ a b, a.map List.length = b.map List.length → k a = k b) ∧ ∀ a, (k a).Blind
  | .callBase .. => False
  | .look k =>
    (∀ ctx r r' ds, r.diagnostics = r'.diagnostics → r.installed.length = r'.installed.length →
      k ctx r ds = k ctx r' ds) ∧ ∀ ctx r ds, (k ctx r ds).Blind

/-! ## Sites -/

/-- Where a callback works: a process, its ledger, and what has been recorded. -/
structure Site (ν : Type) where
  host : Host ν
  ledger : Ledger ν
  record : InitRecord

namespace Site

/-- A module's callback has worked on a site: it may have added lines, its
own, and recorded their handles. -/
structure Grown (moduleId : String) (elsewhere : MethodId → Option (Body ν)) (s t : Site ν) :
    Prop where
  sound : t.host.Sound t.ledger elsewhere
  methods : Host.SameMethods s.host t.host
  bodies : t.ledger.bodies = s.ledger.bodies
  lines : ∃ new, t.ledger.lines = s.ledger.lines ++ new ∧
    t.record.installed = s.record.installed ++ new.map (·.handle) ∧
    ∀ l ∈ new, l.moduleId = moduleId

/-- Sites that nobody who does not read handles can tell apart. -/
structure Twins (elsewhere : MethodId → Option (Body ν)) (s t : Site ν) : Prop where
  left : s.host.Sound s.ledger elsewhere
  right : t.host.Sound t.ledger elsewhere
  methods : Host.SameMethods s.host t.host
  bodies : t.ledger.bodies = s.ledger.bodies
  faces : t.ledger.lines.map Line.face = s.ledger.lines.map Line.face
  diagnostics : t.record.diagnostics = s.record.diagnostics
  installed : t.record.installed.length = s.record.installed.length

variable {moduleId : String} {elsewhere : MethodId → Option (Body ν)} {s t u v : Site ν}

theorem Grown.refl (k : s.host.Sound s.ledger elsewhere) : Grown moduleId elsewhere s s where
  sound := k
  methods := .refl _
  bodies := rfl
  lines := ⟨[], by simp, by simp, fun _ hl => absurd hl List.not_mem_nil⟩

theorem Grown.trans (h : Grown moduleId elsewhere s t) (g : Grown moduleId elsewhere t u) :
    Grown moduleId elsewhere s u where
  sound := g.sound
  methods := h.methods.trans g.methods
  bodies := g.bodies.trans h.bodies
  lines := by
    obtain ⟨new, hlines, hhandles, hown⟩ := h.lines
    obtain ⟨more, glines, ghandles, gown⟩ := g.lines
    refine ⟨new ++ more, ?_, ?_, ?_⟩
    · rw [glines, hlines, List.append_assoc]
    · rw [ghandles, hhandles, List.map_append, List.append_assoc]
    · intro l hl
      rcases List.mem_append.mp hl with hl | hl
      · exact hown l hl
      · exact gown l hl

theorem Twins.refl (k : s.host.Sound s.ledger elsewhere) : Twins elsewhere s s :=
  ⟨k, k, .refl _, rfl, rfl, rfl, rfl⟩

/-- Twins have the same methods hooked. -/
theorem Twins.slot?_isSome (T : Twins elsewhere s t) (m : MethodId) :
    (t.host.table.slot? m).isSome = (s.host.table.slot? m).isSome := by
  have hchains := Ledger.chain_faces T.left.timed T.right.timed T.faces m
  have hnil : t.host.table.slot? m = none ↔ s.host.table.slot? m = none := by
    rw [T.right.slot?_eq_none_iff, T.left.slot?_eq_none_iff, ← List.map_eq_nil_iff (f := Line.face),
      hchains, List.map_eq_nil_iff]
  cases hs : s.host.table.slot? m with
  | none => rw [hnil.mpr hs]
  | some i =>
    cases ht : t.host.table.slot? m with
    | none => exact absurd (hs.symm.trans (hnil.mp ht)) (Option.some_ne_none i)
    | some j => rfl

/-- Twins answer a request for a hook alike. -/
theorem Twins.verdict (T : Twins elsewhere s t) (m : MethodId) (expects : Option (List String)) :
    t.host.verdict m expects = s.host.verdict m expects :=
  Host.verdict_congr T.methods (T.slot?_isSome m) expects

/-- A step that two twins take at once: it leaves twins, each grown. -/
structure Both (moduleId : String) (elsewhere : MethodId → Option (Body ν)) (s t u v : Site ν) :
    Prop where
  twins : Twins elsewhere u v
  left : Grown moduleId elsewhere s u
  right : Grown moduleId elsewhere t v

theorem Both.refl (T : Twins elsewhere s t) : Both moduleId elsewhere s t s t :=
  ⟨T, .refl T.left, .refl T.right⟩

theorem Both.trans {x y : Site ν} (h : Both moduleId elsewhere s t u v)
    (g : Both moduleId elsewhere u v x y) : Both moduleId elsewhere s t x y :=
  ⟨g.twins, h.left.trans g.left, h.right.trans g.right⟩

/-! ## One request -/

/-- A site where an install was refused and the refusal recorded. -/
def refused (s : Site ν) (q : Host ν) (label : String) (e : InstallError) : Site ν :=
  { host := q, ledger := s.ledger, record := HookContext.refuse s.record label e }

/-- A site where a layer was installed and its handle recorded. -/
def granted (s : Site ν) (q : Host ν) (ctx : HookContext) (m : MethodId) (h : Hook ν) : Site ν where
  host := q
  ledger := s.ledger.install ⟨s.host.table.nextHandle⟩ m h ctx.priority ctx.moduleId
  record := { s.record with
    installed := s.record.installed ++ [⟨s.host.table.nextHandle⟩] }

/-- What a request for a hook does to a site, by its verdict. -/
theorem installOn_cases (k : s.host.Sound s.ledger elsewhere) (ctx : HookContext) (m : MethodId)
    (label : String) (h : Hook ν) :
    (∃ e q, s.host.verdict m h.expects = .error e ∧
      ctx.installOn m label h s.record s.host
        = (.error (.hook e), (s.refused q label (.hook e)).record, q) ∧
      Grown ctx.moduleId elsewhere s (s.refused q label (.hook e))) ∨
    (∃ q, s.host.verdict m h.expects = .ok () ∧
      ctx.installOn m label h s.record s.host
        = (.ok ⟨s.host.table.nextHandle⟩, (s.granted q ctx m h).record, q) ∧
      Grown ctx.moduleId elsewhere s (s.granted q ctx m h)) := by
  have hfst := Host.install_fst (k.willing m) h ctx.priority ctx.moduleId
  have hmethods := (s.host.hooksOnly_install m h ctx.priority ctx.moduleId).sameMethods
  rcases k.install m h ctx.priority ctx.moduleId with ⟨e, q, heq, hq⟩ | ⟨q, heq, hq⟩
  · rw [heq] at hfst hmethods
    have hv : s.host.verdict m h.expects = .error e := by
      cases hv : s.host.verdict m h.expects with
      | error e' => rw [hv] at hfst; cases hfst; rfl
      | ok _ => rw [hv] at hfst; cases hfst
    refine .inl ⟨e, q, hv, ?_, hq, hmethods, rfl, [], ?_, ?_, ?_⟩
    · rw [HookContext.installOn, heq]
      rfl
    · exact (List.append_nil _).symm
    · exact (List.append_nil _).symm
    · exact fun _ hl => absurd hl List.not_mem_nil
  · rw [heq] at hfst hmethods
    have hv : s.host.verdict m h.expects = .ok () := by
      cases hv : s.host.verdict m h.expects with
      | error e' => rw [hv] at hfst; cases hfst
      | ok _ => rfl
    refine .inr ⟨q, hv, ?_, hq, hmethods, rfl, [_], rfl, rfl, ?_⟩
    · rw [HookContext.installOn, heq]
      rfl
    · intro l hl
      rw [List.mem_singleton.mp hl]
      rfl

/-- **Twins answer one request alike and stay twins.** -/
theorem installOn_twins (T : Twins elsewhere s t) (ctx : HookContext) (m : MethodId)
    (label : String) (h : Hook ν) :
    ∃ a b u v, ctx.installOn m label h s.record s.host = (a, u.record, u.host) ∧
      ctx.installOn m label h t.record t.host = (b, v.record, v.host) ∧
      a.map (fun _ => ()) = b.map (fun _ => ()) ∧ Both ctx.moduleId elsewhere s t u v := by
  have hv := T.verdict m h.expects
  rcases installOn_cases T.left ctx m label h with
      ⟨e, q, hs, hrun, hgrown⟩ | ⟨q, hs, hrun, hgrown⟩ <;>
    rcases installOn_cases T.right ctx m label h with
      ⟨e', q', ht, hrun', hgrown'⟩ | ⟨q', ht, hrun', hgrown'⟩
  · rw [hs, ht] at hv
    cases hv
    refine ⟨_, _, _, _, hrun, hrun', rfl, ⟨hgrown.sound, hgrown'.sound, ?_, T.bodies, T.faces, ?_,
      T.installed⟩, hgrown, hgrown'⟩
    · exact (hgrown.methods.symm.trans T.methods).trans hgrown'.methods
    · exact congrArg (· ++ _) T.diagnostics
  · rw [hs, ht] at hv
    cases hv
  · rw [hs, ht] at hv
    cases hv
  · refine ⟨_, _, _, _, hrun, hrun', rfl, ⟨hgrown.sound, hgrown'.sound, ?_, T.bodies, ?_,
      T.diagnostics, ?_⟩, hgrown, hgrown'⟩
    · exact (hgrown.methods.symm.trans T.methods).trans hgrown'.methods
    · show (t.ledger.lines ++ [_]).map Line.face = (s.ledger.lines ++ [_]).map Line.face
      rw [List.map_append, List.map_append, T.faces]
      rfl
    · show (t.record.installed ++ [_]).length = (s.record.installed ++ [_]).length
      rw [List.length_append, List.length_append, T.installed]
      rfl

/-- A refusal on record adds no line. -/
theorem grown_refused (k : s.host.Sound s.ledger elsewhere) (label : String) (e : InstallError) :
    Grown moduleId elsewhere s (s.refused s.host label e) where
  sound := k
  methods := .refl _
  bodies := rfl
  lines := ⟨[], (List.append_nil _).symm, (List.append_nil _).symm,
    fun _ hl => absurd hl List.not_mem_nil⟩

/-- A refusal that does not come from the hook table is recorded alike. -/
theorem refused_twins (T : Twins elsewhere s t) (label : String) (e : InstallError) :
    Both moduleId elsewhere s t (s.refused s.host label e) (t.refused t.host label e) where
  twins := { T with diagnostics := congrArg (· ++ _) T.diagnostics }
  left := grown_refused T.left label e
  right := grown_refused T.right label e

theorem hook_twins (T : Twins elsewhere s t) (ctx : HookContext) (descriptor : String)
    (h : Hook ν) :
    ∃ a b u v, ctx.hook descriptor h s.record s.host = (a, u.record, u.host) ∧
      ctx.hook descriptor h t.record t.host = (b, v.record, v.host) ∧
      a.map (fun _ => ()) = b.map (fun _ => ()) ∧ Both ctx.moduleId elsewhere s t u v := by
  unfold HookContext.hook
  rw [T.methods.declarations]
  cases s.host.declarations.resolveText descriptor with
  | ok m => exact installOn_twins T ctx m descriptor h
  | error e => exact ⟨_, _, _, _, rfl, rfl, rfl, refused_twins T descriptor (.resolve e)⟩

theorem hookMethod_twins (T : Twins elsewhere s t) (ctx : HookContext) (m : MethodId)
    (h : Hook ν) :
    ∃ a b u v, ctx.hookMethod m h s.record s.host = (a, u.record, u.host) ∧
      ctx.hookMethod m h t.record t.host = (b, v.record, v.host) ∧
      a.map (fun _ => ()) = b.map (fun _ => ()) ∧ Both ctx.moduleId elsewhere s t u v := by
  have hlabel : HookContext.methodLabel m t.host = HookContext.methodLabel m s.host := by
    rw [HookContext.methodLabel, HookContext.methodLabel, T.methods.info?]
  unfold HookContext.hookMethod
  rw [hlabel]
  exact installOn_twins T ctx m _ h

/-- Overload by overload, twins get as many handles and the same last error. -/
theorem hookEach_twins (T : Twins elsewhere s t) (ctx : HookContext) (h : Hook ν)
    (ms : List MethodId) :
    ∃ hs hs' e u v, ctx.hookEach h ms s.record s.host = ((hs, e), u.record, u.host) ∧
      ctx.hookEach h ms t.record t.host = ((hs', e), v.record, v.host) ∧
      hs.length = hs'.length ∧ Both ctx.moduleId elsewhere s t u v := by
  induction ms generalizing s t with
  | nil => exact ⟨[], [], none, s, t, rfl, rfl, rfl, .refl T⟩
  | cons m ms ih =>
    obtain ⟨a, b, u, v, ha, hb, hab, hboth⟩ := hookMethod_twins T ctx m h
    obtain ⟨hs, hs', e, x, y, hx, hy, hlen, hboth'⟩ := ih hboth.twins
    rw [HookContext.hookEach, HookContext.hookEach, ha, hb]
    cases a with
    | ok g =>
      cases b with
      | error e' => cases hab
      | ok g' =>
        dsimp only
        rw [hx, hy]
        refine ⟨g :: hs, g' :: hs', e, x, y, rfl, rfl, ?_, hboth.trans hboth'⟩
        rw [List.length_cons, List.length_cons, hlen]
    | error e₁ =>
      cases b with
      | ok g' => cases hab
      | error e₂ =>
        cases hab
        dsimp only
        rw [hx, hy]
        exact ⟨hs, hs', e.or (some e₁), x, y, rfl, rfl, hlen, hboth.trans hboth'⟩

theorem hookAll_twins (T : Twins elsewhere s t) (ctx : HookContext) (className name : String)
    (h : Hook ν) :
    ∃ a b u v, ctx.hookAll className name h s.record s.host = (a, u.record, u.host) ∧
      ctx.hookAll className name h t.record t.host = (b, v.record, v.host) ∧
      a.map List.length = b.map List.length ∧ Both ctx.moduleId elsewhere s t u v := by
  unfold HookContext.hookAll
  rw [T.methods.declarations]
  cases s.host.declarations.resolveAll className name with
  | error e =>
    exact ⟨_, _, _, _, rfl, rfl, rfl, refused_twins T (className ++ "#" ++ name) (.resolve e)⟩
  | ok ms =>
    obtain ⟨hs, hs', e, u, v, hu, hv, hlen, hboth⟩ := hookEach_twins T ctx h ms
    dsimp only
    rw [hu, hv]
    cases hs with
    | cons g hs =>
      cases hs' with
      | nil => cases hlen
      | cons g' hs' => exact ⟨_, _, u, v, rfl, rfl, congrArg Except.ok hlen, hboth⟩
    | nil =>
      cases hs' with
      | cons g' hs' => cases hlen
      | nil => cases e <;> exact ⟨_, _, u, v, rfl, rfl, rfl, hboth⟩

/-! ## A callback -/

/-- **A callback that does not read handles does the same in twins**: it
comes to its end in both, and to the same one. -/
theorem run_twins (ctx : HookContext) (enter : Host.Enter ν) (init : Init ν) (hblind : init.Blind)
    (T : Twins elsewhere s t) :
    ∃ ended u v, ctx.run enter init s.record s.host = some ((ended, u.record), u.host) ∧
      ctx.run enter init t.record t.host = some ((ended, v.record), v.host) ∧
      Both ctx.moduleId elsewhere s t u v := by
  induction init generalizing s t with
  | finish e => exact ⟨e, s, t, rfl, rfl, .refl T⟩
  | note n k ih =>
    have hleft : (s.host.addNote n).Sound s.ledger elsewhere :=
      T.left.same (i := 0) rfl rfl (fun _ => rfl) rfl
    have hright : (t.host.addNote n).Sound t.ledger elsewhere :=
      T.right.same (i := 0) rfl rfl (fun _ => rfl) rfl
    have hs : Host.SameMethods s.host (s.host.addNote n) := ⟨rfl, fun _ => rfl, rfl⟩
    have ht : Host.SameMethods t.host (t.host.addNote n) := ⟨rfl, fun _ => rfl, rfl⟩
    have T' : Twins elsewhere { s with host := s.host.addNote n }
        { t with host := t.host.addNote n } :=
      ⟨hleft, hright, (hs.symm.trans T.methods).trans ht, T.bodies, T.faces, T.diagnostics,
        T.installed⟩
    obtain ⟨ended, u, v, hu, hv, hboth⟩ := ih hblind T'
    refine ⟨ended, u, v, hu, hv, hboth.twins, ?_, ?_⟩
    · exact ⟨hboth.left.sound, hs.trans hboth.left.methods, hboth.left.bodies, hboth.left.lines⟩
    · exact ⟨hboth.right.sound, ht.trans hboth.right.methods, hboth.right.bodies,
        hboth.right.lines⟩
  | resolve d k ih =>
    unfold HookContext.run
    rw [T.methods.declarations]
    exact ih _ (hblind _) T
  | hook d h k ih =>
    obtain ⟨a, b, u, v, ha, hb, hab, hboth⟩ := hook_twins T ctx d h
    unfold HookContext.run
    rw [ha, hb]
    dsimp only
    rw [← hblind.1 a b hab]
    obtain ⟨ended, x, y, hx, hy, hboth'⟩ := ih a (hblind.2 a) hboth.twins
    exact ⟨ended, x, y, hx, hy, hboth.trans hboth'⟩
  | hookMethod m h k ih =>
    obtain ⟨a, b, u, v, ha, hb, hab, hboth⟩ := hookMethod_twins T ctx m h
    unfold HookContext.run
    rw [ha, hb]
    dsimp only
    rw [← hblind.1 a b hab]
    obtain ⟨ended, x, y, hx, hy, hboth'⟩ := ih a (hblind.2 a) hboth.twins
    exact ⟨ended, x, y, hx, hy, hboth.trans hboth'⟩
  | hookAll c n h k ih =>
    obtain ⟨a, b, u, v, ha, hb, hab, hboth⟩ := hookAll_twins T ctx c n h
    unfold HookContext.run
    rw [ha, hb]
    dsimp only
    rw [← hblind.1 a b hab]
    obtain ⟨ended, x, y, hx, hy, hboth'⟩ := ih a (hblind.2 a) hboth.twins
    exact ⟨ended, x, y, hx, hy, hboth.trans hboth'⟩
  | callBase h c k _ => exact hblind.elim
  | look k ih =>
    unfold HookContext.run
    rw [T.methods.declarations,
      hblind.1 ctx t.record s.record s.host.declarations T.diagnostics T.installed]
    exact ih _ _ _ (hblind.2 _ _ _) T

end Site

end Interpose
