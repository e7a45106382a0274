import CargoEvents.Wire.Fault

/-! # Records

A payload is a sequence of records: a key, which packs a field number with a wire type,
and a value whose extent the wire type decides. `skip` passes over a value that no field
wants; groups nest, and each level of nesting costs one unit of the budget.
-/
namespace CargoEvents.Wire

def writeKey (number : Nat) (wire : WireType) : Bytes := writeVarint (number * 8 + wire.code)

def readNumber (bytes : Bytes) : Except Reason (Nat × Bytes) :=
  match readVarint bytes with
  | none => .error .invalidVarint
  | some read => .ok read

/-- The wire type is judged before the field number. -/
def readKey (bytes : Bytes) : Except Reason ((Nat × WireType) × Bytes) := do
  let (key, rest) ← readNumber bytes
  if UInt32.size ≤ key then .error (.invalidKey key)
  else match WireType.ofCode? (key % 8) with
    | none => .error (.invalidWireType (key % 8))
    | some wire => if key / 8 = 0 then .error .invalidTag else .ok ((key / 8, wire), rest)

def readExact (count : Nat) (bytes : Bytes) : Except Reason (Bytes × Bytes) :=
  match splitExact count bytes with
  | none => .error .bufferUnderflow
  | some read => .ok read

def readDelimited (bytes : Bytes) : Except Reason (Bytes × Bytes) := do
  let (length, rest) ← readNumber bytes
  readExact length rest

/-- Passes over the records of group `number` up to its end. Each round consumes a key, so
the length of the input bounds the rounds. -/
def skipGroup (skipOne : Nat → WireType → Bytes → Except Reason Bytes) (number : Nat) :
    Nat → Bytes → Except Reason Bytes
  | 0, _ => .error .invalidVarint
  | rounds + 1, bytes => do
    let ((inner, wire), rest) ← readKey bytes
    if wire = .groupEnd then
      if inner = number then .ok rest else .error .unexpectedGroupEnd
    else
      let rest ← skipOne inner wire rest
      skipGroup skipOne number rounds rest

def skip : Nat → Nat → WireType → Bytes → Except Reason Bytes
  | 0, _, _, _ => .error .recursionLimit
  | budget + 1, number, wire, bytes =>
    match wire with
    | .varint => (readNumber bytes).map (·.2)
    | .fixed64 => (readExact 8 bytes).map (·.2)
    | .delimited => (readDelimited bytes).map (·.2)
    | .groupStart => skipGroup (skip budget) number (bytes.length + 1) bytes
    | .groupEnd => .error .unexpectedGroupEnd
    | .fixed32 => (readExact 4 bytes).map (·.2)

end CargoEvents.Wire
