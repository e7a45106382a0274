import CargoEvents.Wire.Record

/-! # Message schemas

A `Field` says how one field value is written, measured and merged from a record; a
`Schema` lists the fields of a message type with their numbers and names. Reading merges:
a record adds to the value that the earlier records left, so a repeated scalar is
replaced, a repeated embedded message is merged and a repeated list element appended.
-/
namespace CargoEvents.Wire

/-- The nested messages a payload may hold inside one another. -/
def depthLimit : Nat := 100

structure Field (φ : Type) where
  wire : WireType
  /-- The value of a field that no record mentions. -/
  blank : φ
  write : Nat → φ → Bytes
  size : Nat → φ → Nat
  /-- Reads one record's value, the key already consumed. -/
  merge : Nat → φ → Bytes → Except Fault (φ × Bytes)

structure Slot (α : Type) where
  number : Nat
  name : String
  write : α → Bytes
  size : α → Nat
  merge : Nat → WireType → α → Bytes → Except Fault (α × Bytes)

structure Schema (α : Type) where
  name : String
  blank : α
  slots : List (Slot α)

def Field.slot {α φ : Type} (field : Field φ) (number : Nat) (name : String)
    (get : α → φ) (set : α → φ → α) : Slot α where
  number := number
  name := name
  write a := field.write number (get a)
  size a := field.size number (get a)
  merge budget wire a bytes :=
    if wire = field.wire then
      (field.merge budget (get a) bytes).map fun (value, rest) => (set a value, rest)
    else .error (.bare (.wireTypeMismatch wire field.wire))

namespace Schema
variable {α : Type}

def write (schema : Schema α) (a : α) : Bytes := schema.slots.flatMap (·.write a)

def size (schema : Schema α) (a : α) : Nat := schema.slots.foldr (fun slot n => slot.size a + n) 0

def slot? (schema : Schema α) (number : Nat) : Option (Slot α) :=
  schema.slots.find? (·.number == number)

/-- Takes in the value of one record. A field that the schema lacks is passed over. -/
def mergeValue (schema : Schema α) (budget number : Nat) (wire : WireType) (a : α)
    (bytes : Bytes) : Except Fault (α × Bytes) :=
  match schema.slot? number with
  | some slot => (slot.merge budget wire a bytes).mapError (·.within schema.name slot.name)
  | none => match skip budget number wire bytes with
    | .error reason => .error (.bare reason)
    | .ok rest => .ok (a, rest)

def mergeRecord (schema : Schema α) (budget : Nat) (a : α) (bytes : Bytes) :
    Except Fault (α × Bytes) :=
  match readKey bytes with
  | .error reason => .error (.bare reason)
  | .ok ((number, wire), rest) => schema.mergeValue budget number wire a rest

/-- Merges records until no more than `left` bytes remain. Each round consumes a key, so
the length of the input bounds the rounds. -/
def mergeUntil (schema : Schema α) (budget left : Nat) :
    Nat → α → Bytes → Except Fault (α × Bytes)
  | 0, a, bytes => .ok (a, bytes)
  | rounds + 1, a, bytes =>
    if bytes.length ≤ left then .ok (a, bytes)
    else do
      let (a, rest) ← schema.mergeRecord budget a bytes
      schema.mergeUntil budget left rounds a rest

/-- Reads an embedded message: its length is checked against all that is left of the
payload, and its records have to end exactly there. -/
def mergeEmbedded (schema : Schema α) : Nat → α → Bytes → Except Fault (α × Bytes)
  | 0, _, _ => .error (.bare .recursionLimit)
  | budget + 1, a, bytes =>
    match readNumber bytes with
    | .error reason => .error (.bare reason)
    | .ok (length, rest) =>
      if rest.length < length then .error (.bare .bufferUnderflow)
      else do
        let left := rest.length - length
        let (a, rest) ← schema.mergeUntil budget left rest.length a rest
        if rest.length = left then .ok (a, rest) else .error (.bare .lengthExceeded)

def read (schema : Schema α) (bytes : Bytes) : Except Fault α :=
  (schema.mergeUntil depthLimit 0 bytes.length schema.blank bytes).map (·.1)

end Schema

namespace Field

def lift {φ : Type} (read : Except Reason (φ × Bytes)) : Except Fault (φ × Bytes) :=
  read.mapError .bare

/-- A scalar written as a base 128 number, left out when it is the default. -/
def number {φ : Type} [DecidableEq φ] (blank : φ) (toNat : φ → Nat) (ofNat : Nat → φ) :
    Field φ where
  wire := .varint
  blank := blank
  write tag v := if v = blank then [] else writeKey tag .varint ++ writeVarint (toNat v)
  size tag v :=
    if v = blank then 0
    else varintSize (tag * 8 + WireType.varint.code) + varintSize (toNat v)
  merge _ _ bytes := lift ((readNumber bytes).map fun (n, rest) => (ofNat n, rest))

/-- A negative number takes the 64-bit two's complement, so ten bytes. -/
def int32 : Field Int32 :=
  number 0 (fun v => v.toInt64.toUInt64.toNat) fun n => (UInt32.ofNat n).toInt32

def int64 : Field Int64 :=
  number 0 (fun v => v.toUInt64.toNat) fun n => (UInt64.ofNat n).toInt64

def bool : Field Bool := number false Bool.toNat (· != 0)

def utf8 (text : String) : Bytes := text.toUTF8.data.toList

def ofUtf8? (bytes : Bytes) : Option String := String.fromUTF8? ⟨bytes.toArray⟩

def text : Field String where
  wire := .delimited
  blank := ""
  write tag v :=
    if v = "" then [] else writeKey tag .delimited ++ writeVarint v.utf8ByteSize ++ utf8 v
  size tag v :=
    if v = "" then 0
    else varintSize (tag * 8 + WireType.delimited.code) + varintSize v.utf8ByteSize
      + v.utf8ByteSize
  merge _ _ bytes := lift do
    let (content, rest) ← readDelimited bytes
    match ofUtf8? content with
    | none => .error .notUtf8
    | some v => .ok (v, rest)

/-- One embedded message: key, length, content. The length is computed, not measured. -/
def writeEmbedded {α : Type} (schema : Schema α) (tag : Nat) (a : α) : Bytes :=
  writeKey tag .delimited ++ writeVarint (schema.size a) ++ schema.write a

def embeddedSize {α : Type} (schema : Schema α) (tag : Nat) (a : α) : Nat :=
  varintSize (tag * 8 + WireType.delimited.code) + varintSize (schema.size a) + schema.size a

/-- A message that may be absent. One that is present is written even if it is empty. -/
def optional {α : Type} (schema : Schema α) : Field (Option α) where
  wire := .delimited
  blank := none
  write tag v := v.elim [] (writeEmbedded schema tag)
  size tag v := v.elim 0 (embeddedSize schema tag)
  merge budget v bytes :=
    (schema.mergeEmbedded budget (v.getD schema.blank) bytes).map fun (a, rest) => (some a, rest)

def repeated {α : Type} (schema : Schema α) : Field (List α) where
  wire := .delimited
  blank := []
  write tag vs := vs.flatMap (writeEmbedded schema tag)
  size tag vs := vs.foldr (fun v n => embeddedSize schema tag v + n) 0
  merge budget vs bytes :=
    (schema.mergeEmbedded budget schema.blank bytes).map fun (a, rest) => (vs ++ [a], rest)

end Field
end CargoEvents.Wire
