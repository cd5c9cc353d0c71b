/-
Interpose.Json.Parser — from tokens to a tree.

The reader holds a stack of the arrays and objects that are open and looks
at one token at a time, so that a document may nest as deep as it likes.
-/
import Interpose.Json.Lexer

namespace Interpose.Json

/-- An array or an object that is open, its parts last one first. -/
inductive Frame where
  | items (done : List Json)
  /-- An object whose next value belongs to `key`. -/
  | members (done : List (Option String × Json)) (key : Option String)

/-- What may come next. -/
inductive Expect where
  | value
  /-- The first item of an array, or its end. -/
  | itemOrEnd
  /-- The first key of an object, or its end. -/
  | keyOrEnd (done : List (Option String × Json))
  | key (done : List (Option String × Json))
  | colon (done : List (Option String × Json)) (k : Option String)
  | separator

/-- Either a complete document, or a state to go on from. -/
abbrev Progress := Json ⊕ (Expect × List Frame)

/-- Gives a value that is complete to the innermost open frame. -/
def deliver (v : Json) : List Frame → Progress
  | [] => .inl v
  | .items done :: fs => .inr (.separator, .items (v :: done) :: fs)
  | .members done k :: fs => .inr (.separator, .members ((k, v) :: done) k :: fs)

/-- Takes a token where a value may stand. -/
def stepValue (fs : List Frame) : Token → Option Progress
  | .value v => some (deliver v fs)
  | .openArray => some (.inr (.itemOrEnd, .items [] :: fs))
  | .openObject => some (.inr (.keyOrEnd [], fs))
  | _ => none

/-- Takes one token. -/
def step (e : Expect) (fs : List Frame) (t : Token) : Option Progress :=
  match e with
  | .value => stepValue fs t
  | .itemOrEnd =>
    match t, fs with
    | .closeArray, .items done :: fs => some (deliver (.array done.reverse) fs)
    | t, fs => stepValue fs t
  | .keyOrEnd done =>
    match t with
    | .closeObject => some (deliver (.object done.reverse) fs)
    | .value (.text k) => some (.inr (.colon done k, fs))
    | _ => none
  | .key done =>
    match t with
    | .value (.text k) => some (.inr (.colon done k, fs))
    | _ => none
  | .colon done k =>
    match t with
    | .colon => some (.inr (.value, .members done k :: fs))
    | _ => none
  | .separator =>
    match t, fs with
    | .comma, .items done :: fs => some (.inr (.value, .items done :: fs))
    | .closeArray, .items done :: fs => some (deliver (.array done.reverse) fs)
    | .comma, .members done _ :: fs => some (.inr (.key done, fs))
    | .closeObject, .members done _ :: fs => some (deliver (.object done.reverse) fs)
    | _, _ => none

/-- Takes tokens to the end; the document must be complete exactly there. -/
def parseFrom (e : Expect) (fs : List Frame) : List Token → Option Json
  | [] => none
  | t :: ts =>
    match step e fs t with
    | none => none
    | some (.inl v) => if ts.isEmpty then some v else none
    | some (.inr (e, fs)) => parseFrom e fs ts

/-- Reads a document. -/
def parse (bs : List UInt8) : Option Json := (lex bs).bind (parseFrom .value [])

end Interpose.Json
