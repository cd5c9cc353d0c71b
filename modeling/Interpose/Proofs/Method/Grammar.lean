/-
Interpose.Proofs.Method.Grammar — which texts name a method, and what they name.

The grammar is said on its own (`Spells`): a descriptor is an identifier,
`#` and an identifier, and then, in parentheses, either blanks alone or
identifiers with commas between them and blanks around each; around the
whole there may be blanks as well. The reader cuts at the first `#`, at
the first `(` and at a last `)` and trims in three places. None of the
four separators is in an identifier, and no separator is blank, so that
each cut can only fall where the grammar has it.

Main statement: `parses_grammar`.
-/
import Interpose.Method.Resolve
import Interpose.Proofs.Text.Cut

namespace Interpose

open Text (Padded allBlank isBlank trim)

variable {cs core rest : List Char} {ps : List (List Char)}

/-! ## Identifiers -/

/-- At least one character, none of them blank and none a separator. -/
structure Ident (cs : List Char) : Prop where
  ne_nil : cs ≠ []
  plain : ∀ c ∈ cs, isBlank c = false ∧ c ≠ '#' ∧ c ≠ '(' ∧ c ≠ ')' ∧ c ≠ ','

theorem isIdent_iff : isIdent cs = true ↔ Ident cs := by
  have hchars : (cs.all fun c => !isBlank c && !(['#', '(', ')', ','].contains c)) = true ↔
      ∀ c ∈ cs, isBlank c = false ∧ c ≠ '#' ∧ c ≠ '(' ∧ c ≠ ')' ∧ c ≠ ',' := by
    simp
  rw [isIdent, Bool.and_eq_true, hchars]
  exact ⟨fun ⟨hne, hplain⟩ => ⟨by simpa using hne, hplain⟩,
    fun h => ⟨by simpa using h.ne_nil, h.plain⟩⟩

namespace Ident

theorem notMem_hash (h : Ident cs) : '#' ∉ cs := fun hmem => (h.plain _ hmem).2.1 rfl

theorem notMem_open (h : Ident cs) : '(' ∉ cs := fun hmem => (h.plain _ hmem).2.2.1 rfl

theorem notMem_comma (h : Ident cs) : ',' ∉ cs := fun hmem => (h.plain _ hmem).2.2.2.2 rfl

/-- No blank stands in front of what begins with an identifier. -/
theorem head?_append (h : Ident cs) (r : List Char) :
    ∀ c ∈ (cs ++ r).head?, isBlank c = false := by
  obtain ⟨x, xs, rfl⟩ := List.exists_cons_of_ne_nil h.ne_nil
  simpa using (h.plain x List.mem_cons_self).1

/-- No blank stands behind what ends with an identifier. -/
theorem getLast?_append (h : Ident cs) (r : List Char) :
    ∀ c ∈ (r ++ cs).getLast?, isBlank c = false := by
  intro c hc
  rw [List.getLast?_append, Option.or_of_isSome (by simpa using h.ne_nil)] at hc
  exact (h.plain c (List.mem_of_getLast? hc)).1

theorem trim_of_padded (h : Ident core) (hpad : Padded core cs) : trim cs = core := by
  refine Text.trim_of_padded hpad h.ne_nil ?_ ?_
  · simpa using h.head?_append []
  · simpa using h.getLast?_append []

end Ident

/-! ## Parameter lists -/

/-- Identifiers with commas between them, and blanks around each. -/
inductive Elements : List Char → List (List Char) → Prop
  | last {p cs : List Char} (ident : Ident p) (padded : Padded p cs) : Elements cs [p]
  | more {p cs rest : List Char} {ps : List (List Char)} (ident : Ident p) (padded : Padded p cs)
      (others : Elements rest ps) : Elements (cs ++ ',' :: rest) (p :: ps)

/-- What stands between the parentheses. -/
inductive ParamList : List Char → List (List Char) → Prop
  | blank {cs : List Char} (blank : allBlank cs = true) : ParamList cs []
  | listed {cs : List Char} {ps : List (List Char)} (elements : Elements cs ps) : ParamList cs ps

namespace Elements

theorem ident (h : Elements cs ps) : ∀ p ∈ ps, Ident p := by
  induction h with
  | last ident _ => simpa using ident
  | more ident _ _ ih => exact List.forall_mem_cons.mpr ⟨ident, ih⟩

/-- Parameters are not nothing. -/
theorem not_allBlank (h : Elements cs ps) : allBlank cs = false := by
  have hpadded : ∀ {p cs : List Char}, Ident p → Padded p cs → allBlank cs = false := by
    intro p cs hident hpad
    obtain ⟨c, r, rfl⟩ := List.exists_cons_of_ne_nil hident.ne_nil
    have hc := hpad.subset List.mem_cons_self
    exact List.all_eq_false.mpr ⟨c, hc, by simp [(hident.plain c List.mem_cons_self).1]⟩
  cases h with
  | last ident padded => exact hpadded ident padded
  | more ident padded _ =>
    rw [allBlank, List.all_append, Bool.and_eq_false_iff]
    exact .inl (hpadded ident padded)

theorem notMem_comma {p : List Char} (ident : Ident p) (padded : Padded p cs) : ',' ∉ cs :=
  fun h => (padded.mem h).elim ident.notMem_comma (by decide)

/-- **The commas are the only ones**, so that splitting at them gives the parameters. -/
theorem splitOn (h : Elements cs ps) : (cs.splitOn ',').map trim = ps := by
  induction h with
  | @last p cs ident padded =>
    have hcomma : ∀ c ∈ cs, (c == ',') = false :=
      fun c hc => beq_false_of_ne fun heq => notMem_comma ident padded (heq ▸ hc)
    rw [List.splitOn_eq_splitOnP, List.splitOnP_eq_singleton hcomma, List.map_singleton,
      ident.trim_of_padded padded]
  | @more p cs rest ps ident padded _ ih =>
    have hcomma : ∀ c ∈ cs, (c == ',') = false :=
      fun c hc => beq_false_of_ne fun heq => notMem_comma ident padded (heq ▸ hc)
    rw [List.splitOn_eq_splitOnP] at ih ⊢
    rw [List.splitOnP_append_cons_of_forall_mem hcomma ',' rfl, List.map_cons,
      ident.trim_of_padded padded, ih]

/-- Pieces that come to identifiers when they are trimmed make a list. -/
theorem of_pieces {pieces : List (List Char)} (hne : pieces ≠ [])
    (hident : ∀ x ∈ pieces, Ident (trim x)) :
    Elements ([','].intercalate pieces) (pieces.map trim) := by
  induction pieces with
  | nil => exact absurd rfl hne
  | cons x xs ih =>
    obtain ⟨hx, hxs⟩ := List.forall_mem_cons.mp hident
    cases xs with
    | nil => simpa using Elements.last hx (Text.padded_trim x)
    | cons y ys =>
      have hrest := Elements.more hx (Text.padded_trim x) (ih (List.cons_ne_nil y ys) hxs)
      simpa [List.intercalate_cons_cons] using hrest

end Elements

namespace MethodDescriptor

/-- **A parameter list is read as what it lists.** -/
theorem readParams_eq_ok_iff : readParams cs = .ok ps ↔ ParamList cs ps := by
  rw [readParams]
  constructor
  · intro h
    split at h
    case isTrue hblank =>
      cases h
      exact .blank hblank
    case isFalse =>
      dsimp only at h
      split at h
      case isTrue hident =>
        cases h
        have helements := Elements.of_pieces (List.splitOn_ne_nil ',' cs) fun x hx =>
          isIdent_iff.mp (List.all_eq_true.mp hident _ (List.mem_map_of_mem hx))
        rw [List.intercalate_splitOn] at helements
        exact .listed helements
      case isFalse => cases h
  · rintro (hblank | helements)
    · rw [if_pos hblank]
    · rw [if_neg (by simp [helements.not_allBlank])]
      dsimp only
      rw [helements.splitOn,
        if_pos (List.all_eq_true.mpr fun p hp => isIdent_iff.mpr (helements.ident p hp))]

/-! ## Descriptors -/

/-- **The grammar**: the text, with no blanks around it, and what it names. -/
inductive Spells : List Char → MethodDescriptor → Prop
  /-- With no list, every overload. -/
  | overloads {cls name : List Char} (cls_ident : Ident cls) (name_ident : Ident name) :
    Spells (cls ++ '#' :: name)
      { className := String.ofList cls, name := String.ofList name, params := none }
  /-- With a list, even an empty one, the one overload that has it. -/
  | exact {cls name inner : List Char} {ps : List (List Char)} (cls_ident : Ident cls)
      (name_ident : Ident name) (list : ParamList inner ps) :
    Spells (cls ++ '#' :: (name ++ '(' :: (inner ++ [')'])))
      { className := String.ofList cls, name := String.ofList name
        params := some (ps.map String.ofList) }

/-- All parts of the descriptor are identifiers. -/
structure WellFormed (d : MethodDescriptor) : Prop where
  className : Ident d.className.toList
  name : Ident d.name.toList
  params : ∀ ps, d.params = some ps → ∀ p ∈ ps, Ident p.toList

theorem Spells.wellFormed {d : MethodDescriptor} (h : Spells cs d) : d.WellFormed := by
  cases h with
  | overloads hcls hname => exact ⟨by simpa using hcls, by simpa using hname, nofun⟩
  | exact hcls hname hlist =>
    refine ⟨by simpa using hcls, by simpa using hname, fun ps heq p hp => ?_⟩
    cases heq
    obtain ⟨q, hq, rfl⟩ := List.mem_map.mp hp
    cases hlist with
    | blank => exact absurd hq List.not_mem_nil
    | listed helements => simpa using helements.ident q hq

/-- What is spelled begins and ends with something that is not blank. -/
theorem Spells.trim_of_padded {d : MethodDescriptor} (h : Spells core d) (hpad : Padded core cs) :
    trim cs = core := by
  cases h with
  | overloads hcls hname =>
    refine Text.trim_of_padded hpad (by simp) (hcls.head?_append _) ?_
    rw [← List.singleton_append, ← List.append_assoc]
    exact hname.getLast?_append _
  | exact hcls hname hlist =>
    refine Text.trim_of_padded hpad (by simp) (hcls.head?_append _) ?_
    rw [← List.cons_append, ← List.append_assoc, ← List.cons_append, ← List.append_assoc,
      List.getLast?_concat]
    rintro _ ⟨⟩
    decide

/-! ## Reading -/

theorem readTail_eq_ok_iff {name : List Char} {params : Option (List (List Char))} :
    readTail cs = .ok (name, params) ↔
      (params = none ∧ cs = name ∧ '(' ∉ cs) ∨
      ∃ inner ps, params = some ps ∧ cs = name ++ '(' :: (inner ++ [')']) ∧ '(' ∉ name ∧
        ParamList inner ps := by
  rw [readTail]
  cases hcut : Text.cutFirst? '(' cs with
  | none =>
    have hnone := Text.cutFirst?_eq_none_iff.mp hcut
    constructor
    · intro h
      cases h
      exact .inl ⟨rfl, rfl, hnone⟩
    · rintro (⟨rfl, rfl, -⟩ | ⟨inner, ps, -, rfl, -⟩)
      · rfl
      · simp at hnone
  | some cut =>
    obtain ⟨before, tail⟩ := cut
    obtain ⟨rfl, hfirst⟩ := Text.cutFirst?_eq_some_iff.mp hcut
    dsimp only
    cases hfinal : Text.dropFinal? ')' tail with
    | none =>
      refine ⟨fun h => (nomatch h), ?_⟩
      rintro (⟨-, -, hnone⟩ | ⟨inner, ps, -, heq, hname, -⟩)
      · simp at hnone
      · have hsame := hcut.symm.trans (Text.cutFirst?_eq_some_iff.mpr ⟨heq, hname⟩)
        cases hsame
        rw [Text.dropFinal?_eq_some_iff.mpr rfl] at hfinal
        cases hfinal
    | some inner =>
      obtain rfl := Text.dropFinal?_eq_some_iff.mp hfinal
      dsimp only
      constructor
      · intro h
        cases hparams : readParams inner with
        | error e => simp [hparams, Except.map] at h
        | ok ps =>
          rw [hparams] at h
          cases h
          exact .inr ⟨inner, ps, rfl, rfl, hfirst, readParams_eq_ok_iff.mp hparams⟩
      · rintro (⟨-, -, hnone⟩ | ⟨inner', ps, rfl, heq, hname, hlist⟩)
        · simp at hnone
        · have hsame := hcut.symm.trans (Text.cutFirst?_eq_some_iff.mpr ⟨heq, hname⟩)
          obtain ⟨rfl, htail⟩ := Prod.mk.inj (Option.some.inj hsame)
          obtain rfl := List.append_cancel_right htail
          rw [readParams_eq_ok_iff.mpr hlist]
          rfl

/-- **The reader accepts what the grammar spells**, once blanks are trimmed. -/
theorem read_eq_ok_iff {d : MethodDescriptor} : read cs = .ok d ↔ Spells (trim cs) d := by
  rw [read]
  constructor
  · intro h
    split at h
    case h_1 => cases h
    case h_2 cls rest hcut =>
      obtain ⟨htrim, -⟩ := Text.cutFirst?_eq_some_iff.mp hcut
      split at h
      case h_1 => cases h
      case h_2 name params htail =>
        split at h
        case isTrue => cases h
        case isFalse hcls =>
          split at h
          case isTrue => cases h
          case isFalse hname =>
            cases h
            have hcls := isIdent_iff.mp (by simpa using hcls)
            have hname := isIdent_iff.mp (by simpa using hname)
            rw [htrim]
            rcases readTail_eq_ok_iff.mp htail with ⟨rfl, rfl, -⟩ | ⟨inner, ps, rfl, rfl, -, hlist⟩
            · exact .overloads hcls hname
            · exact .exact hcls hname hlist
  · intro h
    generalize trim cs = core at h
    cases h with
    | @overloads cls name hcls hname =>
      rw [Text.cutFirst?_eq_some_iff.mpr ⟨rfl, hcls.notMem_hash⟩]
      dsimp only
      rw [readTail_eq_ok_iff.mpr (.inl ⟨rfl, rfl, hname.notMem_open⟩)]
      simp [isIdent_iff.mpr hcls, isIdent_iff.mpr hname]
    | @exact cls name inner ps hcls hname hlist =>
      rw [Text.cutFirst?_eq_some_iff.mpr ⟨rfl, hcls.notMem_hash⟩]
      dsimp only
      rw [readTail_eq_ok_iff.mpr (.inr ⟨inner, ps, rfl, rfl, hname.notMem_open, hlist⟩)]
      simp [isIdent_iff.mpr hcls, isIdent_iff.mpr hname]

theorem parse_eq_ok_iff {s : String} {d : MethodDescriptor} :
    parse s = .ok d ↔ ∃ core, Padded core s.toList ∧ Spells core d := by
  have hread : parse s = .ok d ↔ read s.toList = .ok d := by
    rw [parse]
    cases read s.toList with
    | ok d' =>
      constructor <;> intro h <;> cases h
      · rfl
      · rfl
    | error e => constructor <;> intro h <;> cases h
  rw [hread, read_eq_ok_iff]
  constructor
  · exact fun h => ⟨_, Text.padded_trim s.toList, h⟩
  · rintro ⟨core, hpad, h⟩
    rwa [h.trim_of_padded hpad]

/-! ## Printing -/

/-- The text of a parameter list is one, with no blanks. -/
theorem paramList_intercalate (h : ∀ p ∈ ps, Ident p) : ParamList ([','].intercalate ps) ps := by
  have htrim : ∀ p ∈ ps, trim p = p := fun p hp => (h p hp).trim_of_padded (.refl p)
  cases ps with
  | nil => exact .blank rfl
  | cons q qs =>
    have helements := Elements.of_pieces (List.cons_ne_nil q qs) fun p hp => by
      rw [htrim p hp]
      exact h p hp
    rw [List.map_congr_left htrim, List.map_id'] at helements
    exact .listed helements

/-- **The text of a descriptor spells it.** -/
theorem WellFormed.spells {d : MethodDescriptor} (h : d.WellFormed) : Spells d.text.toList d := by
  obtain ⟨cls, name, params⟩ := d
  cases params with
  | none => simpa [text] using Spells.overloads h.className h.name
  | some params =>
    have hidents : ∀ p ∈ params.map String.toList, Ident p :=
      List.forall_mem_map.mpr (h.params params rfl)
    have hlist := paramList_intercalate hidents
    have hspells := Spells.exact h.className h.name hlist
    simpa [text, paramText, String.toList_intercalate, Function.comp_def] using hspells

theorem WellFormed.parse_text {d : MethodDescriptor} (h : d.WellFormed) : parse d.text = .ok d :=
  parse_eq_ok_iff.mpr ⟨_, .refl _, h.spells⟩

/-- **A text is read as a descriptor exactly when the grammar spells it**, with
blanks around it or none, and as the one that it spells; what is printed of
a descriptor is read as the same one, and so reading, printing and reading
again is reading. -/
theorem parses_grammar (s : String) (d : MethodDescriptor) :
    (parse s = .ok d ↔ ∃ core, Padded core s.toList ∧ Spells core d) ∧
      (d.WellFormed → parse d.text = .ok d) ∧
      (parse s = .ok d → parse d.text = parse s) := by
  refine ⟨parse_eq_ok_iff, WellFormed.parse_text, fun h => ?_⟩
  obtain ⟨core, -, hspells⟩ := parse_eq_ok_iff.mp h
  rw [hspells.wellFormed.parse_text, h]

example : parse "\u3000A#f( int,\tlong )\n"
    = .ok { className := "A", name := "f", params := some ["int", "long"] } := by cbv

end MethodDescriptor

end Interpose
