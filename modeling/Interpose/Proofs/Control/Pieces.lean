/-
Interpose.Proofs.Control.Pieces — what a piece of a command leaves of the registry.

A command stops at the first piece that fails, and what was done by then
stays done. So what is said of a piece is twofold: what holds of the
registry if it went well, and what holds if it failed (`Act.Leads`). Pieces
are put together in a few ways, and each of them has its rule. Many only
look at the daemon (`Act.Looks`); all others are changes, of which a failed
one leaves the registry as it was (`leads_change`).

Throughout, one client works at a time, and the store can be written.
-/
import Interpose.Proofs.Control.Act

namespace Interpose.Control

open Registry (Document Mutation)

/-- The registry behind a desk can be saved, and is as `P` says. -/
def Desk.Holds (desk : Desk Daemon) (P : Document → Prop) : Prop :=
  Daemon.Writes none desk.behind ∧ P desk.behind.registry.current

namespace Act

variable {α β : Type} {E P P' : Document → Prop} {x : Act Daemon α} {f : α → Act Daemon β}
  {Q Q' : α → Document → Prop} {R : β → Document → Prop}

/-! ## Putting pieces together -/

/-- Where `P` holds, a piece leads to `Q` if it goes well, and to `E` if it fails. -/
structure Leads (E P : Document → Prop) (x : Act Daemon α) (Q : α → Document → Prop) : Prop where
  ends : ∀ desk : Desk Daemon, desk.Holds P → match x.perform desk with
    | (.ok a, desk) => desk.Holds (Q a)
    | (.error _, desk) => desk.Holds E

theorem Leads.weaken (h : Leads E P x Q) (hpre : ∀ d, P' d → P d) (hpost : ∀ a d, Q a d → Q' a d) :
    Leads E P' x Q' := by
  refine ⟨fun desk ⟨hwrites, hP⟩ => ?_⟩
  have hrun := h.ends desk ⟨hwrites, hpre _ hP⟩
  rcases hperform : x.perform desk with ⟨_ | a, done⟩
  · rwa [hperform] at hrun
  · rw [hperform] at hrun
    exact hrun.imp_right (hpost a _)

theorem Leads.and {E' : Document → Prop} (h : Leads E P x Q) (h' : Leads E' P x Q') :
    Leads E P x fun a d => Q a d ∧ Q' a d := by
  refine ⟨fun desk hdesk => ?_⟩
  have hrun := h.ends desk hdesk
  have hrun' := h'.ends desk hdesk
  rcases hperform : x.perform desk with ⟨_ | a, done⟩ <;> rw [hperform] at hrun hrun'
  · exact hrun
  · exact ⟨hrun.1, hrun.2, hrun'.2⟩

theorem leads_pure {a : α} (h : ∀ d, P d → Q a d) : Leads E P (pure a) Q :=
  ⟨fun _ hdesk => hdesk.imp_right (h _)⟩

theorem leads_throw {e : Failure} (h : ∀ d, P d → E d) : Leads E P (throw e) Q :=
  ⟨fun _ hdesk => hdesk.imp_right (h _)⟩

theorem Leads.bind (hx : Leads E P x Q) (hf : ∀ a, Leads E (Q a) (f a) R) :
    Leads E P (x >>= f) R := by
  refine ⟨fun desk hdesk => ?_⟩
  have hrun := hx.ends desk hdesk
  rw [perform_bind]
  rcases hperform : x.perform desk with ⟨_ | a, done⟩
  · rwa [hperform] at hrun
  · rw [hperform] at hrun
    exact (hf a).ends done hrun

/-- After a failure nothing is done any more. -/
theorem leads_throw_bind {e : Failure} (h : ∀ d, P d → E d) : Leads E P (throw e >>= f) R :=
  (leads_throw (Q := fun _ _ => False) h).bind fun _ => ⟨fun _ hdesk => hdesk.2.elim⟩

theorem perform_blaming (x : Act Daemon α) (g : Failure → Failure) (desk : Desk Daemon) :
    (x.blaming g).perform desk = ((x.perform desk).1.mapError g, (x.perform desk).2) := rfl

theorem Leads.blaming {g : Failure → Failure} (h : Leads E P x Q) : Leads E P (x.blaming g) Q := by
  refine ⟨fun desk hdesk => ?_⟩
  have hrun := h.ends desk hdesk
  rw [perform_blaming]
  rcases hperform : x.perform desk with ⟨_ | a, done⟩ <;> rw [hperform] at hrun <;> exact hrun

theorem Leads.discard {R : Unit → Document → Prop} (h : Leads E P x fun _ => R ()) :
    Leads E P (discard x) R :=
  h.bind fun _ => leads_pure fun _ => id

/-- What every round keeps, all of them keep. -/
theorem leads_forM {l : List β} {g : β → Act Daemon PUnit}
    (h : ∀ b ∈ l, Leads E P (g b) fun _ => P) : Leads E P (l.forM g) fun _ => P := by
  induction l with
  | nil => exact leads_pure fun _ => id
  | cons b l ih =>
    obtain ⟨hb, hl⟩ := List.forall_mem_cons.mp h
    exact hb.bind fun _ => ih hl

theorem leads_mapM {l : List β} {g : β → Act Daemon α}
    (h : ∀ b ∈ l, Leads E P (g b) fun _ => P) : Leads E P (l.mapM g) fun _ => P := by
  induction l with
  | nil => exact leads_pure fun _ => id
  | cons b l ih =>
    obtain ⟨hb, hl⟩ := List.forall_mem_cons.mp h
    rw [List.mapM_cons]
    exact hb.bind fun _ => (ih hl).bind fun _ => leads_pure fun _ => id

/-! ## Looking -/

/-- A piece that leaves the daemon alone. -/
structure Looks (x : Act Daemon α) : Prop where
  same : ∀ desk, (x.perform desk).2.behind = desk.behind

theorem Looks.leads (h : x.Looks) (hP : ∀ d, P d → E d) : Leads E P x fun _ => P := by
  refine ⟨fun desk hdesk => ?_⟩
  have hsame := h.same desk
  rcases hperform : x.perform desk with ⟨_ | a, done⟩ <;> rw [hperform] at hsame
  · show Daemon.Writes none done.behind ∧ E done.behind.registry.current
    rw [hsame]
    exact hdesk.imp_right (hP _)
  · show Daemon.Writes none done.behind ∧ P done.behind.registry.current
    rw [hsame]
    exact hdesk

theorem looks_pure (a : α) : Looks (pure a) := ⟨fun _ => rfl⟩

theorem looks_throw (e : Failure) : Looks (throw e : Act Daemon α) := ⟨fun _ => rfl⟩

theorem looks_print (line : String) : Looks (print line) := ⟨fun _ => rfl⟩

theorem looks_get : Looks get := ⟨fun _ => rfl⟩

theorem looks_call {g : Daemon → Except Status α × Daemon} (h : ∀ d, (g d).2 = d) :
    Looks (call g) := ⟨fun desk => h desk.behind⟩

theorem looks_readFile (name : String) : Looks (readFile name) := ⟨fun _ => rfl⟩

theorem looks_writeFile (name : String) (bytes : List UInt8) : Looks (writeFile name bytes) := by
  refine ⟨fun desk => ?_⟩
  simp only [perform, writeFile]
  split <;> rfl

theorem Looks.bind (hx : x.Looks) (hf : ∀ a, (f a).Looks) : (x >>= f).Looks := by
  refine ⟨fun desk => ?_⟩
  have hsame := hx.same desk
  rw [perform_bind]
  rcases hperform : x.perform desk with ⟨_ | a, done⟩ <;> rw [hperform] at hsame
  · exact hsame
  · exact ((hf a).same done).trans hsame

theorem looks_forM {l : List β} {g : β → Act Daemon PUnit} (h : ∀ b, (g b).Looks) :
    (l.forM g).Looks := by
  induction l with
  | nil => exact looks_pure _
  | cons b l ih => exact (h b).bind fun _ => ih

end Act

/-! ## Calls -/

open Act

variable {E P : Document → Prop}

/-- What a listing shows is there. -/
theorem leads_listing {β : Type} {f : List ModuleInfo → Act Daemon β} {R : β → Document → Prop}
    (h : ∀ known, Leads E (fun d => P d ∧ known = d.modules.values.map Module.toInfo) (f known) R) :
    Leads E P (listing Daemon.manager >>= f) R := by
  refine ⟨fun desk hdesk => ?_⟩
  rw [perform_bind_ok (listing_ok desk)]
  exact (h _).ends desk ⟨hdesk.1, hdesk.2, rfl⟩

/-- **A change is made, or else it leaves the registry as it was**; it can only be
refused where `E` holds. -/
theorem leads_change {op : MutationOp} {Q : MutationAnswer → Document → Prop}
    (hmade : ∀ d m d', P d → Daemon.mutationOf op = .ok m → d.next m = .ok d' → Q {
      registryVersion := d'.version
      touched := (d'.get? m.moduleId).map Module.toInfo } d')
    (hrefused : ∀ d, P d → E d ∨ ∃ m d', Daemon.mutationOf op = .ok m ∧ d.next m = .ok d') :
    Leads E P (change Daemon.manager op) Q := by
  refine ⟨fun desk ⟨hwrites, hP⟩ => ?_⟩
  by_cases hcan : ∃ m d', Daemon.mutationOf op = .ok m ∧
    desk.behind.registry.current.next m = .ok d'
  · obtain ⟨m, d', hm, hnext⟩ := hcan
    obtain ⟨d, hrun, hcurrent, hwrites'⟩ := change_ok desk hm hnext hwrites
    rw [hrun]
    refine ⟨hwrites', ?_⟩
    rw [hcurrent]
    exact hmade _ m d' hP hm hnext
  · obtain ⟨e, d, hrun, hregistry, hdisk, hstore⟩ :=
      change_refused desk fun m d' hm hnext => hcan ⟨m, d', hm, hnext⟩
    rw [hrun]
    show Daemon.Writes none d ∧ E d.registry.current
    rw [Daemon.Writes, hregistry, hdisk, hstore]
    exact ⟨hwrites, (hrefused _ hP).resolve_right hcan⟩

end Interpose.Control
