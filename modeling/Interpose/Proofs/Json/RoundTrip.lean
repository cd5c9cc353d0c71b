/-
Interpose.Proofs.Json.RoundTrip — what is written is read back.

Between the bytes and the tree are tokens. `tokens` says which tokens a
value is, `lex_renderAt` that its written form is read as these, whatever the
level it is written at, and `parseFrom_tokens` that the reader makes the
value of them, whatever is open around it. Both are inductions on the
value, one case for each kind.

Not every tree has a written form: a number that is not whole and a text
that is none have not. `Plain` are the trees without such parts.

Main statement: `parse_render`.
-/
import Interpose.Json.Parser
import Interpose.Proofs.Json.Lexing

namespace Interpose.Json

/-! ## Trees that can be written -/

mutual

/-- Whole numbers that fit into 64 bits, texts that are texts, and nothing else but
arrays and objects of these. -/
def Plain : Json → Prop
  | .null | .bool _ => True
  | .int n => -(UInt64.size / 2 : Nat) ≤ n ∧ n < UInt64.size
  | .real _ => False
  | .text s => s.isSome
  | .array vs => PlainItems vs
  | .object ms => PlainMembers ms

def PlainItems : List Json → Prop
  | [] => True
  | v :: vs => Plain v ∧ PlainItems vs

def PlainMembers : List (Option String × Json) → Prop
  | [] => True
  | (k, v) :: ms => k.isSome ∧ Plain v ∧ PlainMembers ms

end

/-! ## Tokens -/

mutual

/-- The tokens of a value. -/
def tokens : Json → List Token
  | .array vs => .openArray :: (itemTokens true vs ++ [.closeArray])
  | .object ms => .openObject :: (memberTokens true ms ++ [.closeObject])
  | v => [.value v]

def itemTokens (first : Bool) : List Json → List Token
  | [] => []
  | v :: vs => (if first then [] else [.comma]) ++ (tokens v ++ itemTokens false vs)

def memberTokens (first : Bool) : List (Option String × Json) → List Token
  | [] => []
  | (k, v) :: ms =>
    (if first then [] else [.comma]) ++
      (.value (.text k) :: .colon :: (tokens v ++ memberTokens false ms))

end

/-! ## From bytes to tokens -/

theorem lex_space {b : UInt8} (h : isSpace b = true) (r : List UInt8) : lex (b :: r) = lex r := by
  rw [lex.eq_def]
  simp [h]

theorem lex_token {b : UInt8} {r r' : List UInt8} {t : Token} (hb : isSpace b = false)
    (h : lexToken b r = some (t, r')) : lex (b :: r) = (lex r').map (t :: ·) := by
  rw [lex.eq_def]
  dsimp only
  rw [if_neg (by simp [hb])]
  split
  · rename_i hnone
    simp [h] at hnone
  · rename_i hsome
    rw [h] at hsome
    cases hsome
    rfl

theorem lex_punctuation {b : UInt8} {t : Token} (h : punctuation? b = some t)
    (hb : isSpace b = false) (r : List UInt8) : lex (b :: r) = (lex r).map (t :: ·) := by
  apply lex_token hb
  rw [lexToken, h]

theorem lex_newLine (level : Nat) (r : List UInt8) : lex (newLine level ++ r) = lex r := by
  have hblanks : ∀ n, lex (List.replicate n 32 ++ r) = lex r := by
    intro n
    induction n with
    | zero => rfl
    | succ n ih => rw [List.replicate_succ, List.cons_append, lex_space (by decide), ih]
  rw [newLine, List.cons_append, lex_space (by decide), hblanks]

theorem lex_separator (first : Bool) (r : List UInt8) :
    lex (separator first ++ r)
      = (lex r).map ((if first then [] else [Token.comma]) ++ ·) := by
  cases first with
  | true => simp [separator]
  | false => exact lex_punctuation (by rfl) (by decide) r

theorem lex_quoteText (s : String) (r : List UInt8) :
    lex (quoteText s ++ r) = (lex r).map (.value (.text (some s)) :: ·) := by
  have hshape : quoteText s ++ r
      = ascii '"' :: (s.toUTF8.toList.flatMap escapeByte ++ ascii '"' :: r) := by
    simp [quoteText]
  rw [hshape]
  apply lex_token (by decide)
  rw [lexToken, show punctuation? (ascii '"') = none from rfl]
  dsimp only
  rw [if_pos rfl, lexText_quoted, Option.map_some]

/-- A word that is a value. -/
theorem lex_word {b : UInt8} (ws : List UInt8) {r : List UInt8} {v : Json} (hb : isSpace b = false)
    (h : lexToken b (ws ++ r) = some (.value v, r)) :
    lex (b :: ws ++ r) = (lex r).map (.value v :: ·) :=
  lex_token hb h

theorem textBytes_int (n : Int) :
    textBytes (toString n) = (if n < 0 then [ascii '-'] else []) ++ digitBytes n.natAbs := by
  have hnat : ∀ m : Nat, textBytes (toString m) = digitBytes m := by
    intro m
    rw [textBytes, Nat.toString_eq_repr, Nat.toList_repr]
    rfl
  cases n with
  | ofNat m => exact hnat m
  | negSucc m =>
    show textBytes ("-" ++ toString (m + 1)) = _
    rw [textBytes, String.toList_append, List.map_append, if_pos (Int.negSucc_lt_zero m)]
    exact congrArg ([ascii '-'] ++ ·) (hnat (m + 1))

/-- A digit begins a number and nothing else. -/
theorem lexToken_digit {d : UInt8} (hd : isDigit d = true) (r : List UInt8) :
    isSpace d = false ∧
      lexToken d r = (lexUnsigned false (d :: r)).map fun p => (.value p.1, p.2) := by
  have hall : ∀ n < 58, 48 ≤ n → isSpace (.ofNat n) = false ∧ punctuation? (.ofNat n) = none ∧
      UInt8.ofNat n ≠ ascii '"' ∧ UInt8.ofNat n ≠ ascii '-' := by decide
  obtain ⟨hlo, hhi⟩ := isDigit_iff.mp hd
  obtain ⟨hspace, hnone, hquote, hminus⟩ := hall d.toNat (by omega) hlo
  rw [UInt8.ofNat_toNat] at hspace hnone hquote hminus
  refine ⟨hspace, ?_⟩
  rw [lexToken, hnone]
  dsimp only
  rw [if_neg hquote, if_neg hminus, if_pos hd]

/-- **A whole number is read back as it was.** -/
theorem lex_int {n : Int} (hn : Plain (.int n)) {r : List UInt8} (hr : Stops r) :
    lex (textBytes (toString n) ++ r) = (lex r).map (.value (.int n) :: ·) := by
  obtain ⟨hleast, hbound⟩ := hn
  rw [textBytes_int]
  by_cases hneg : n < 0
  · rw [if_pos hneg]
    have hwhole : wholeNumber true n.natAbs = .int n := by
      rw [wholeNumber, if_pos rfl, if_neg (by omega), if_pos (by omega)]
      congr
      omega
    rw [List.append_assoc, List.singleton_append]
    apply lex_token (by decide)
    rw [lexToken, show punctuation? (ascii '-') = none from rfl]
    dsimp only
    rw [if_neg (by decide), if_pos rfl, lexUnsigned_digitBytes true _ hr, hwhole,
      Option.map_some]
  · rw [if_neg hneg, List.nil_append]
    have hwhole : wholeNumber false n.natAbs = .int n := by
      rw [wholeNumber, if_neg (by decide), if_pos (by omega)]
      congr
      omega
    cases hds : digitBytes n.natAbs with
    | nil => exact absurd hds (digitBytes_ne_nil n.natAbs)
    | cons d ds =>
      have hd : isDigit d = true := isDigit_of_mem_digitBytes (hds ▸ List.mem_cons_self)
      obtain ⟨hspace, htoken⟩ := lexToken_digit hd (ds ++ r)
      rw [List.cons_append]
      apply lex_token hspace
      rw [htoken, ← List.cons_append, ← hds, lexUnsigned_digitBytes false _ hr, hwhole,
        Option.map_some]

theorem stops_newLine (level : Nat) (r : List UInt8) : Stops (newLine level ++ r) := by
  intro b hb
  cases hb
  decide

theorem stops_renderItems {level : Nat} {vs : List Json} {r : List UInt8} (hr : Stops r) :
    Stops (renderItems level false vs ++ r) := by
  cases vs with
  | nil => exact hr
  | cons v vs =>
    rw [renderItems]
    intro b hb
    cases hb
    decide

theorem stops_renderMembers {level : Nat} {ms : List (Option String × Json)} {r : List UInt8}
    (hr : Stops r) : Stops (renderMembers level false ms ++ r) := by
  cases ms with
  | nil => exact hr
  | cons m ms =>
    obtain ⟨k, v⟩ := m
    rw [renderMembers]
    intro b hb
    cases hb
    decide

/-- A bracket or a brace, and what closes it at the start of a line. -/
theorem lex_enclosed {b b' : UInt8} {t t' : Token} (ht : punctuation? b = some t)
    (hb : isSpace b = false) (ht' : punctuation? b' = some t') (hb' : isSpace b' = false)
    {level : Nat} {inner r : List UInt8} {ts : List Token}
    (h : ∀ r, Stops r → lex (inner ++ r) = (lex r).map (ts ++ ·)) :
    lex (b :: inner ++ newLine level ++ [b'] ++ r)
      = (lex r).map ((t :: (ts ++ [t'])) ++ ·) := by
  have hshape : b :: inner ++ newLine level ++ [b'] ++ r
      = b :: (inner ++ (newLine level ++ b' :: r)) := by simp
  rw [hshape, lex_punctuation ht hb, h _ (stops_newLine level _), lex_newLine,
    lex_punctuation ht' hb', Option.map_map, Option.map_map]
  congr 1
  funext rest
  simp

mutual

/-- **A value is read as its tokens**, at whatever level it is written. -/
theorem lex_renderAt (level : Nat) {v : Json} (hv : Plain v) {r : List UInt8} (hr : Stops r) :
    lex (renderAt level v ++ r) = (lex r).map (tokens v ++ ·) := by
  match v with
  | .null => exact lex_word (textBytes "ull") (by decide) rfl
  | .bool true => exact lex_word (textBytes "rue") (by decide) rfl
  | .bool false => exact lex_word (textBytes "alse") (by decide) rfl
  | .int n => exact lex_int hv hr
  | .text (some s) => exact lex_quoteText s r
  | .array [] =>
    exact (lex_punctuation rfl (by decide) _).trans
      ((congrArg _ (lex_punctuation rfl (by decide) _)).trans (Option.map_map ..))
  | .array (v :: vs) =>
    exact lex_enclosed rfl (by decide) rfl (by decide)
      fun r hr => lex_renderItems (level + 1) true hv hr
  | .object [] =>
    exact (lex_punctuation rfl (by decide) _).trans
      ((congrArg _ (lex_punctuation rfl (by decide) _)).trans (Option.map_map ..))
  | .object (m :: ms) =>
    exact lex_enclosed rfl (by decide) rfl (by decide)
      fun r hr => lex_renderMembers (level + 1) true hv hr

theorem lex_renderItems (level : Nat) (first : Bool) {vs : List Json} (hvs : PlainItems vs)
    {r : List UInt8} (hr : Stops r) :
    lex (renderItems level first vs ++ r) = (lex r).map (itemTokens first vs ++ ·) := by
  match vs with
  | [] => exact Option.map_id'.symm
  | v :: vs =>
    obtain ⟨hv, hvs⟩ := hvs
    rw [renderItems, List.append_assoc, List.append_assoc, List.append_assoc, lex_separator,
      lex_newLine, lex_renderAt level hv (stops_renderItems hr), lex_renderItems level false hvs hr,
      Option.map_map, Option.map_map, itemTokens]
    congr 1
    funext rest
    simp

theorem lex_renderMembers (level : Nat) (first : Bool) {ms : List (Option String × Json)}
    (hms : PlainMembers ms) {r : List UInt8} (hr : Stops r) :
    lex (renderMembers level first ms ++ r) = (lex r).map (memberTokens first ms ++ ·) := by
  match ms with
  | [] => exact Option.map_id'.symm
  | (some k, v) :: ms =>
    obtain ⟨_, hv, hms⟩ := hms
    have hcolon : ∀ r, lex (textBytes ": " ++ r) = (lex r).map (Token.colon :: ·) := fun r =>
      (lex_punctuation rfl (by decide) _).trans (congrArg _ (lex_space (by decide) r))
    rw [renderMembers, List.append_assoc, List.append_assoc, List.append_assoc, List.append_assoc,
      List.append_assoc, lex_separator, lex_newLine, Option.getD_some, lex_quoteText, hcolon,
      lex_renderAt level hv (stops_renderMembers hr), lex_renderMembers level false hms hr,
      Option.map_map, Option.map_map, Option.map_map, Option.map_map, memberTokens]
    congr 1
    funext rest
    simp

end

/-! ## From tokens to the tree -/

/-- What the reader makes of the tokens that are left. -/
def resume : Progress → List Token → Option Json
  | .inl v, ts => if ts.isEmpty then some v else none
  | .inr (e, fs), ts => parseFrom e fs ts

theorem parseFrom_cons {e : Expect} {fs : List Frame} {t : Token} {p : Progress}
    (h : step e fs t = some p) (ts : List Token) : parseFrom e fs (t :: ts) = resume p ts := by
  rw [parseFrom, h]
  rcases p with v | ⟨e, fs⟩ <;> rfl

/-- Where a value may stand. -/
def Expect.TakesValue : Expect → Prop
  | .value | .itemOrEnd => True
  | _ => False

theorem step_takesValue {e : Expect} (he : e.TakesValue) {t : Token} (ht : t ≠ .closeArray)
    (fs : List Frame) : step e fs t = stepValue fs t := by
  cases e with
  | value => rfl
  | itemOrEnd => cases t <;> first | rfl | exact absurd rfl ht
  | _ => exact he.elim

/-- A value of one token. -/
theorem parseFrom_single {v : Json} (h : tokens v = [.value v]) {e : Expect} (he : e.TakesValue)
    (fs : List Frame) (ts : List Token) :
    parseFrom e fs (tokens v ++ ts) = resume (deliver v fs) ts := by
  rw [h]
  exact parseFrom_cons (step_takesValue he (by simp) fs) ts

mutual

/-- **The reader makes a value of its tokens**, whatever is open around it. -/
theorem parseFrom_tokens {e : Expect} (he : e.TakesValue) (fs : List Frame) (v : Json)
    (ts : List Token) : parseFrom e fs (tokens v ++ ts) = resume (deliver v fs) ts := by
  match v with
  | .array vs =>
    have hshape : tokens (.array vs) ++ ts
        = .openArray :: (itemTokens true vs ++ .closeArray :: ts) := by simp [tokens]
    rw [hshape, parseFrom_cons (step_takesValue he (by simp) fs)]
    exact parseFrom_items true fs [] vs ts
  | .object ms =>
    have hshape : tokens (.object ms) ++ ts
        = .openObject :: (memberTokens true ms ++ .closeObject :: ts) := by simp [tokens]
    rw [hshape, parseFrom_cons (step_takesValue he (by simp) fs)]
    exact parseFrom_members true fs none [] ms ts
  | .null | .bool _ | .int _ | .real _ | .text _ => exact parseFrom_single rfl he fs ts

theorem parseFrom_items (first : Bool) (fs : List Frame) (done vs : List Json)
    (ts : List Token) :
    parseFrom (if first then .itemOrEnd else .separator) (.items done :: fs)
        (itemTokens first vs ++ .closeArray :: ts)
      = resume (deliver (.array (done.reverse ++ vs)) fs) ts := by
  match vs with
  | [] =>
    rw [List.append_nil]
    cases first <;> exact parseFrom_cons rfl ts
  | v :: vs =>
    have hrest := parseFrom_items false fs (v :: done) vs ts
    rw [List.reverse_cons, List.append_assoc, List.singleton_append] at hrest
    cases first with
    | true =>
      have hshape : itemTokens true (v :: vs) ++ .closeArray :: ts
          = tokens v ++ (itemTokens false vs ++ .closeArray :: ts) := by simp [itemTokens]
      rw [if_pos rfl, hshape, parseFrom_tokens (e := .itemOrEnd) trivial]
      exact hrest
    | false =>
      have hshape : itemTokens false (v :: vs) ++ .closeArray :: ts
          = .comma :: (tokens v ++ (itemTokens false vs ++ .closeArray :: ts)) := by
        simp [itemTokens]
      rw [if_neg (by decide), hshape, parseFrom_cons rfl]
      show parseFrom .value (.items done :: fs) _ = _
      rw [parseFrom_tokens (e := .value) trivial]
      exact hrest

theorem parseFrom_members (first : Bool) (fs : List Frame) (key : Option String)
    (done ms : List (Option String × Json)) (ts : List Token) :
    parseFrom (if first then .keyOrEnd done else .separator)
        (if first then fs else .members done key :: fs)
        (memberTokens first ms ++ .closeObject :: ts)
      = resume (deliver (.object (done.reverse ++ ms)) fs) ts := by
  match ms with
  | [] =>
    rw [List.append_nil]
    cases first <;> exact parseFrom_cons rfl ts
  | (k, v) :: ms =>
    have hrest := parseFrom_members false fs k ((k, v) :: done) ms ts
    rw [List.reverse_cons, List.append_assoc, List.singleton_append] at hrest
    have hvalue : parseFrom (.colon done k) fs
        (.colon :: (tokens v ++ (memberTokens false ms ++ .closeObject :: ts)))
          = resume (deliver (.object (done.reverse ++ (k, v) :: ms)) fs) ts := by
      rw [parseFrom_cons rfl]
      show parseFrom .value (.members done k :: fs) _ = _
      rw [parseFrom_tokens (e := .value) trivial]
      exact hrest
    cases first with
    | true =>
      have hshape : memberTokens true ((k, v) :: ms) ++ .closeObject :: ts
          = .value (.text k) :: .colon ::
            (tokens v ++ (memberTokens false ms ++ .closeObject :: ts)) := by simp [memberTokens]
      rw [if_pos rfl, if_pos rfl, hshape, parseFrom_cons rfl]
      exact hvalue
    | false =>
      have hshape : memberTokens false ((k, v) :: ms) ++ .closeObject :: ts
          = .comma :: .value (.text k) :: .colon ::
            (tokens v ++ (memberTokens false ms ++ .closeObject :: ts)) := by simp [memberTokens]
      rw [if_neg (by decide), if_neg (by decide), hshape, parseFrom_cons rfl]
      show parseFrom (.key done) fs _ = _
      rw [parseFrom_cons rfl]
      exact hvalue

end

/-- What is written is read back, also if there are blanks behind it. -/
theorem parse_render_append {v : Json} (hv : Plain v) {r : List UInt8} (hr : Stops r)
    (hblank : lex r = some []) : parse (render v ++ r) = some v := by
  have hparse := parseFrom_tokens (e := .value) trivial [] v []
  rw [parse, render, lex_renderAt 0 hv hr, hblank, Option.map_some, Option.bind_some, hparse]
  rfl

/-- **What is written is read back.** -/
theorem parse_render {v : Json} (hv : Plain v) : parse (render v) = some v := by
  have hblank : lex [] = some [] := by
    rw [lex.eq_def]
  have h := parse_render_append hv (r := []) (by intro b hb; cases hb) hblank
  rwa [List.append_nil] at h

/-- A line end may follow what is written. -/
theorem parse_render_line {v : Json} (hv : Plain v) : parse (render v ++ [10]) = some v := by
  refine parse_render_append hv (stops_newLine 0 []) ?_
  rw [lex_space (by decide), lex.eq_def]

end Interpose.Json
