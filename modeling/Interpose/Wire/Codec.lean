/-
Interpose.Wire.Codec — from records to fields and back.

A codec is a list of the fields a record has, each told by how it is
written and how a field that was read changes the record. Numbers nobody
knows are passed over. A field that comes twice replaces what was there,
except that a message is merged into the one before it and a list grows.
Values that every record starts with are not written.
-/
import Interpose.Wire.Field

namespace Interpose.Wire

/-! ## Codecs -/

/-- One field of the records of type `α`. -/
structure FieldCodec (α : Type) where
  number : Nat
  write : α → List Payload
  /-- Takes a payload into the record; the number tells how deep messages may nest. -/
  merge : Nat → α → Payload → Option α

structure Codec (α : Type) where
  empty : α
  fields : List (FieldCodec α)

namespace Codec

variable {α : Type}

/-- The fields of a record, in the order of the codec. -/
def toFields (c : Codec α) (a : α) : List Field :=
  c.fields.flatMap fun f => (f.write a).map ({ number := f.number, payload := · })

def encode (c : Codec α) (a : α) : List UInt8 := writeFields (c.toFields a)

/-- Takes one field into a record. -/
def mergeField (c : Codec α) (limit : Nat) (a : α) (f : Field) : Option α :=
  match c.fields.find? (·.number == f.number) with
  | some x => x.merge limit a f.payload
  | none => some a

/-- Takes the fields of a byte string into a record. -/
def mergeBytes (c : Codec α) (limit : Nat) (a : α) (bs : List UInt8) : Option α :=
  (readFields limit bs).bind fun fs => fs.foldlM (c.mergeField limit) a

/-- How deep messages and groups may nest. -/
def nesting : Nat := 100

def decode (c : Codec α) (bs : List UInt8) : Option α := c.mergeBytes nesting c.empty bs

end Codec

/-! ## Scalars -/

/-- How a type is written in a word of 64 bits. Words that nobody writes are
cut down to the type's own width. -/
structure Scalar (σ : Type) where
  zero : σ
  toWord : σ → UInt64
  ofWord : UInt64 → σ

namespace Scalar

def bool : Scalar Bool := ⟨false, fun b => if b then 1 else 0, fun w => w != 0⟩
def uint32 : Scalar UInt32 := ⟨0, fun n => n.toUInt64, fun w => w.toUInt32⟩
def uint64 : Scalar UInt64 := ⟨0, fun n => n, fun w => w⟩
/-- Negative numbers are written in all 64 bits. -/
def int32 : Scalar Int32 := ⟨0, fun n => n.toInt64.toUInt64, fun w => w.toUInt32.toInt32⟩
def int64 : Scalar Int64 := ⟨0, fun n => n.toUInt64, fun w => w.toInt64⟩

end Scalar

namespace FieldCodec

variable {α σ β : Type}

/-- A scalar that every record has; its zero is not written. -/
def scalar [DecidableEq σ] (number : Nat) (s : Scalar σ) (get : α → σ) (set : α → σ → α) :
    FieldCodec α where
  number
  write a := if get a = s.zero then [] else [.varint (s.toWord (get a))]
  merge _ a
    | .varint w => some (set a (s.ofWord w))
    | _ => none

/-- A scalar that may be absent; if it is there it is written, zero or not. -/
def optional (number : Nat) (s : Scalar σ) (get : α → Option σ) (set : α → σ → α) :
    FieldCodec α where
  number
  write a := ((get a).map fun x => Payload.varint (s.toWord x)).toList
  merge _ a
    | .varint w => some (set a (s.ofWord w))
    | _ => none

/-! ## Text -/

def textBytes (s : String) : List UInt8 := s.toUTF8.toList

/-- Texts are UTF-8, and nothing else is a text. -/
def bytesText? (bs : List UInt8) : Option String := String.fromUTF8? bs.toByteArray

/-- A text that every record has; the empty one is not written. -/
def text (number : Nat) (get : α → String) (set : α → String → α) : FieldCodec α where
  number
  write a := if get a = "" then [] else [.bytes (textBytes (get a))]
  merge _ a
    | .bytes bs => (bytesText? bs).map (set a)
    | _ => none

/-- Any number of texts. -/
def texts (number : Nat) (get : α → List String) (set : α → List String → α) : FieldCodec α where
  number
  write a := (get a).map fun s => .bytes (textBytes s)
  merge _ a
    | .bytes bs => (bytesText? bs).map fun s => set a (get a ++ [s])
    | _ => none

/-! ## Messages -/

/-- A message that may be absent; a second one is merged into the first. -/
def message (number : Nat) (c : Codec β) (get : α → Option β) (set : α → β → α) :
    FieldCodec α where
  number
  write a := ((get a).map fun b => Payload.bytes (c.encode b)).toList
  merge limit a
    | .bytes bs =>
      if limit = 0 then none
      else (c.mergeBytes (limit - 1) ((get a).getD c.empty) bs).map (set a)
    | _ => none

/-- Any number of messages. -/
def messages (number : Nat) (c : Codec β) (get : α → List β) (set : α → List β → α) :
    FieldCodec α where
  number
  write a := (get a).map fun b => .bytes (c.encode b)
  merge limit a
    | .bytes bs =>
      if limit = 0 then none
      else (c.mergeBytes (limit - 1) c.empty bs).map fun b => set a (get a ++ [b])
    | _ => none

end FieldCodec

end Interpose.Wire
