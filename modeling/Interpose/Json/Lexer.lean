/-
Interpose.Json.Lexer — from bytes to tokens.

Everything outside texts is ASCII. A text may hold any bytes but controls,
quotes and backslashes; whether it is UTF-8, and whether its surrogates
come in pairs, is found out here but is not an error here: the token then
holds no text.
-/
import Interpose.Json.Value
import Interpose.Text.Hex

namespace Interpose.Json

inductive Token where
  | openObject
  | closeObject
  | openArray
  | closeArray
  | colon
  | comma
  /-- A value that is one token. -/
  | value (v : Json)
  deriving Inhabited

/-- The byte of an ASCII character. -/
def ascii (c : Char) : UInt8 := UInt8.ofNat c.toNat

/-! ## Texts -/

/-- What has been read of a text: its bytes, last one first, unless it has
turned out to be no text, and a high surrogate that waits for its low one. -/
structure TextSoFar where
  bytes : Option (List UInt8) := some []
  pending : Option Nat := none

namespace TextSoFar

/-- Adds bytes; a surrogate that was waiting is left alone, which is an error. -/
def push (t : TextSoFar) (bs : List UInt8) : TextSoFar where
  bytes := if t.pending.isSome then none else t.bytes.map fun acc => bs.reverse ++ acc

/-- Adds the character of a code unit. -/
def pushUnit (t : TextSoFar) (n : Nat) : TextSoFar :=
  if 0xD800 ≤ n ∧ n < 0xDC00 then
    let before := t.push []
    { before with pending := some n }
  else if 0xDC00 ≤ n ∧ n < 0xE000 then
    match t.pending with
    | some hi =>
      let before : TextSoFar := { t with pending := none }
      before.push (String.utf8EncodeChar
        (Char.ofNat (0x10000 + (hi - 0xD800) * 0x400 + (n - 0xDC00))))
    | none => { bytes := none }
  else t.push (String.utf8EncodeChar (Char.ofNat n))

/-- The text, if it is one. -/
def finish (t : TextSoFar) : Option String :=
  (t.push []).bytes.bind fun acc => String.fromUTF8? acc.reverse.toByteArray

end TextSoFar

/-- The byte a backslash and a letter stand for. -/
def escaped? (e : UInt8) : Option UInt8 :=
  if e = ascii '"' then some e
  else if e = ascii '\\' then some e
  else if e = ascii '/' then some e
  else if e = ascii 'b' then some 8
  else if e = ascii 'f' then some 12
  else if e = ascii 'n' then some 10
  else if e = ascii 'r' then some 13
  else if e = ascii 't' then some 9
  else none

/-- The value of a hexadecimal digit. -/
def hexDigit? (b : UInt8) : Option Nat := Text.Hex.value? (Char.ofNat b.toNat)

/-- Reads a text from behind its opening quote. -/
def lexText (t : TextSoFar) : List UInt8 → Option (Option String × List UInt8)
  | [] => none
  | b :: r =>
    if b = ascii '"' then some (t.finish, r)
    else if b = ascii '\\' then
      match r with
      | [] => none
      | e :: r =>
        if e = ascii 'u' then
          match r with
          | h1 :: h2 :: h3 :: h4 :: r =>
            match hexDigit? h1, hexDigit? h2, hexDigit? h3, hexDigit? h4 with
            | some n1, some n2, some n3, some n4 =>
              lexText (t.pushUnit (((n1 * 16 + n2) * 16 + n3) * 16 + n4)) r
            | _, _, _, _ => none
          | _ => none
        else
          match escaped? e with
          | some x => lexText (t.push [x]) r
          | none => none
    else if b < 0x20 then none
    else lexText (t.push [b]) r

theorem length_lexText {t : TextSoFar} {bs r : List UInt8} {s : Option String}
    (h : lexText t bs = some (s, r)) : r.length < bs.length := by
  induction hn : bs.length using Nat.strongRecOn generalizing t bs with
  | ind n ih =>
    subst hn
    rw [lexText.eq_def] at h
    repeat' split at h
    all_goals first
      | (simp only [Option.some.injEq, Prod.mk.injEq] at h; simp [h.2])
      | (simp at h)
      | (have hr := ih _ (by simp only [List.length_cons]; omega) h rfl
         simp only [List.length_cons]
         omega)

/-! ## Numbers -/

def isDigit (b : UInt8) : Bool := ascii '0' ≤ b && b ≤ ascii '9'

/-- The number some digits stand for. -/
def digitsValue (ds : List UInt8) : Nat :=
  ds.foldl (fun n d => 10 * n + (d.toNat - 48)) 0

/-- Whether `m` tens to the power of `e` fit into a double: they stay below
the middle between the largest one and the next power of two. -/
def isFinite (m : Nat) (e : Int) : Bool :=
  let digits : Int := (Nat.toDigits 10 m).length
  if m = 0 then true
  else if digits + e < 300 then true
  else if 320 < digits + e then false
  else
    let bound := Nat.pow 2 1024 - Nat.pow 2 970
    if 0 ≤ e then m * Nat.pow 10 e.toNat < bound else m < bound * Nat.pow 10 (-e).toNat

/-- A number without fraction and exponent. Minus nought is not whole. -/
def wholeNumber (negative : Bool) (n : Nat) : Json :=
  if negative then
    if n = 0 then .real true
    else if n ≤ UInt64.size / 2 then .int (-n)
    else .real (isFinite n 0)
  else if n < UInt64.size then .int n
  else .real (isFinite n 0)

/-- Digits, at least one of them, and what follows. -/
def lexDigits (bs : List UInt8) : Option (List UInt8 × List UInt8) :=
  let ds := bs.takeWhile isDigit
  if ds.isEmpty then none else some (ds, bs.dropWhile isDigit)

/-- The digits of a fraction: none, unless there is a point. -/
def lexFraction (bs : List UInt8) : Option (Option (List UInt8) × List UInt8) :=
  match bs with
  | [] => some (none, [])
  | b :: r =>
    if b = ascii '.' then (lexDigits r).map fun p => (some p.1, p.2)
    else some (none, b :: r)

/-- A sign in front of an exponent: whether it is a minus sign, and what follows. -/
def lexSign (bs : List UInt8) : Bool × List UInt8 :=
  match bs with
  | [] => (false, [])
  | b :: r =>
    if b = ascii '-' then (true, r)
    else if b = ascii '+' then (false, r)
    else (false, b :: r)

/-- An exponent, unless there is none. -/
def lexExponent (bs : List UInt8) : Option (Option Int × List UInt8) :=
  match bs with
  | [] => some (none, [])
  | b :: r =>
    if b = ascii 'e' ∨ b = ascii 'E' then
      let (negative, r) := lexSign r
      (lexDigits r).map fun p =>
        let n := digitsValue p.1
        (some (if negative then -(n : Int) else n), p.2)
    else some (none, b :: r)

/-- A number from behind its sign. A nought in front of other digits is an error. -/
def lexUnsigned (negative : Bool) (bs : List UInt8) : Option (Json × List UInt8) :=
  (lexDigits bs).bind fun (ds, r) =>
    if ds.head? = some (ascii '0') ∧ 1 < ds.length then none
    else (lexFraction r).bind fun (fs, r) => (lexExponent r).map fun (e, r) =>
      match fs, e with
      | none, none => (wholeNumber negative (digitsValue ds), r)
      | _, _ =>
        let fs := fs.getD []
        (.real (isFinite (digitsValue (ds ++ fs)) (e.getD 0 - fs.length)), r)

/-! ## What is left of a number is shorter -/

theorem length_lexDigits {bs ds r : List UInt8} (h : lexDigits bs = some (ds, r)) :
    r.length < bs.length := by
  simp only [lexDigits] at h
  split at h
  · simp at h
  · rename_i hne
    simp only [Option.some.injEq, Prod.mk.injEq] at h
    have hsum : (bs.takeWhile isDigit).length + (bs.dropWhile isDigit).length = bs.length := by
      rw [← List.length_append, List.takeWhile_append_dropWhile]
    have : 0 < (bs.takeWhile isDigit).length := by
      rw [List.length_pos_iff]
      simpa using hne
    rw [← h.2]
    omega

theorem length_lexFraction {bs r : List UInt8} {fs : Option (List UInt8)}
    (h : lexFraction bs = some (fs, r)) : r.length ≤ bs.length := by
  cases bs with
  | nil => simp_all [lexFraction]
  | cons b bs =>
    simp only [lexFraction] at h
    split at h
    · simp only [Option.map_eq_some_iff, Prod.mk.injEq] at h
      obtain ⟨⟨ds, r'⟩, hd, -, rfl⟩ := h
      have := length_lexDigits hd
      simp only [List.length_cons]
      omega
    · simp only [Option.some.injEq, Prod.mk.injEq] at h
      simp [← h.2]

theorem length_lexSign (bs : List UInt8) : (lexSign bs).2.length ≤ bs.length := by
  cases bs with
  | nil => simp [lexSign]
  | cons b bs =>
    simp only [lexSign]
    split
    · simp
    · split <;> simp

theorem length_lexExponent {bs r : List UInt8} {e : Option Int}
    (h : lexExponent bs = some (e, r)) : r.length ≤ bs.length := by
  cases bs with
  | nil => simp_all [lexExponent]
  | cons b bs =>
    simp only [lexExponent] at h
    split at h
    · simp only [Option.map_eq_some_iff, Prod.mk.injEq] at h
      obtain ⟨⟨ds, r'⟩, hd, -, rfl⟩ := h
      have := length_lexDigits hd
      have := length_lexSign bs
      simp only [List.length_cons]
      omega
    · simp only [Option.some.injEq, Prod.mk.injEq] at h
      simp [← h.2]

theorem length_lexUnsigned {negative : Bool} {bs r : List UInt8} {v : Json}
    (h : lexUnsigned negative bs = some (v, r)) : r.length < bs.length := by
  simp only [lexUnsigned, Option.bind_eq_some_iff] at h
  obtain ⟨⟨ds, r1⟩, hd, h⟩ := h
  have := length_lexDigits hd
  split at h
  · simp at h
  · simp only [Option.bind_eq_some_iff] at h
    obtain ⟨⟨fs, r2⟩, hf, h⟩ := h
    have := length_lexFraction hf
    simp only [Option.map_eq_some_iff] at h
    obtain ⟨⟨e, r3⟩, he, h⟩ := h
    have := length_lexExponent he
    split at h <;> (simp only [Prod.mk.injEq] at h; rw [← h.2]; omega)

/-! ## Tokens -/

/-- The single-byte tokens. -/
def punctuation? (b : UInt8) : Option Token :=
  if b = ascii '{' then some .openObject
  else if b = ascii '}' then some .closeObject
  else if b = ascii '[' then some .openArray
  else if b = ascii ']' then some .closeArray
  else if b = ascii ':' then some .colon
  else if b = ascii ',' then some .comma
  else none

/-- What follows a word, if the bytes begin with it. -/
def dropWord? : List UInt8 → List UInt8 → Option (List UInt8)
  | [], bs => some bs
  | _ :: _, [] => none
  | w :: ws, b :: bs => if w = b then dropWord? ws bs else none

theorem length_dropWord? {w bs r : List UInt8} (h : dropWord? w bs = some r) :
    r.length ≤ bs.length := by
  induction w generalizing bs with
  | nil => simp_all [dropWord?]
  | cons x w ih =>
    cases bs with
    | nil => simp [dropWord?] at h
    | cons b bs =>
      simp only [dropWord?] at h
      split at h
      · have := ih h
        simp only [List.length_cons]
        omega
      · simp at h

/-- Blanks between tokens. -/
def isSpace (b : UInt8) : Bool := b = 32 || b = 10 || b = 9 || b = 13

/-- The rest of a token that begins with this byte. -/
def lexToken (b : UInt8) (r : List UInt8) : Option (Token × List UInt8) :=
  match punctuation? b with
  | some t => some (t, r)
  | none =>
    if b = ascii '"' then (lexText {} r).map fun p => (.value (.text p.1), p.2)
    else if b = ascii '-' then (lexUnsigned true r).map fun p => (.value p.1, p.2)
    else if isDigit b then (lexUnsigned false (b :: r)).map fun p => (.value p.1, p.2)
    else if b = ascii 't' then
      (dropWord? ("rue".toList.map ascii) r).map fun r => (.value (.bool true), r)
    else if b = ascii 'f' then
      (dropWord? ("alse".toList.map ascii) r).map fun r => (.value (.bool false), r)
    else if b = ascii 'n' then
      (dropWord? ("ull".toList.map ascii) r).map fun r => (.value .null, r)
    else none

theorem length_lexToken {b : UInt8} {bs r : List UInt8} {t : Token}
    (h : lexToken b bs = some (t, r)) : r.length ≤ bs.length := by
  simp only [lexToken] at h
  split at h
  · simp only [Option.some.injEq, Prod.mk.injEq] at h
    simp [← h.2]
  · split at h
    · simp only [Option.map_eq_some_iff, Prod.mk.injEq] at h
      obtain ⟨⟨s, r'⟩, ht, -, rfl⟩ := h
      exact Nat.le_of_lt (length_lexText ht)
    · split at h
      · simp only [Option.map_eq_some_iff, Prod.mk.injEq] at h
        obtain ⟨⟨s, r'⟩, ht, -, rfl⟩ := h
        exact Nat.le_of_lt (length_lexUnsigned ht)
      · split at h
        · simp only [Option.map_eq_some_iff, Prod.mk.injEq] at h
          obtain ⟨⟨s, r'⟩, ht, -, rfl⟩ := h
          exact Nat.le_of_lt_succ (length_lexUnsigned ht)
        · split at h
          · simp only [Option.map_eq_some_iff, Prod.mk.injEq] at h
            obtain ⟨r', hw, -, rfl⟩ := h
            exact length_dropWord? hw
          · split at h
            · simp only [Option.map_eq_some_iff, Prod.mk.injEq] at h
              obtain ⟨r', hw, -, rfl⟩ := h
              exact length_dropWord? hw
            · split at h
              · simp only [Option.map_eq_some_iff, Prod.mk.injEq] at h
                obtain ⟨r', hw, -, rfl⟩ := h
                exact length_dropWord? hw
              · simp at h

/-- The tokens of a byte string. -/
def lex (bs : List UInt8) : Option (List Token) :=
  match bs with
  | [] => some []
  | b :: r =>
    if isSpace b then lex r
    else
      match _h : lexToken b r with
      | none => none
      | some (t, r') => (lex r').map (t :: ·)
termination_by bs.length
decreasing_by
  · simp
  · exact Nat.lt_succ_of_le (length_lexToken _h)

end Interpose.Json
