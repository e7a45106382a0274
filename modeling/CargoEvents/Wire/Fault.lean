import CargoEvents.Wire.Varint

/-! # Why a payload is refused

A fault is a reason together with the fields it was met in, innermost first. Its text
names each of them as `Message.field`.
-/
namespace CargoEvents.Wire

inductive WireType
  | varint | fixed64 | delimited | groupStart | groupEnd | fixed32
  deriving DecidableEq, Repr

def WireType.code : WireType → Nat
  | .varint => 0
  | .fixed64 => 1
  | .delimited => 2
  | .groupStart => 3
  | .groupEnd => 4
  | .fixed32 => 5

def WireType.ofCode? : Nat → Option WireType
  | 0 => some .varint
  | 1 => some .fixed64
  | 2 => some .delimited
  | 3 => some .groupStart
  | 4 => some .groupEnd
  | 5 => some .fixed32
  | _ => none

@[simp] theorem WireType.ofCode?_code (w : WireType) : ofCode? w.code = some w := by
  cases w <;> rfl

def WireType.title : WireType → String
  | .varint => "Varint"
  | .fixed64 => "SixtyFourBit"
  | .delimited => "LengthDelimited"
  | .groupStart => "StartGroup"
  | .groupEnd => "EndGroup"
  | .fixed32 => "ThirtyTwoBit"

inductive Reason
  | invalidVarint
  | invalidKey (key : Nat)
  | invalidWireType (code : Nat)
  | invalidTag
  | wireTypeMismatch (actual expected : WireType)
  | bufferUnderflow
  | lengthExceeded
  | unexpectedGroupEnd
  | recursionLimit
  | notUtf8
  deriving DecidableEq, Repr

def Reason.message : Reason → String
  | .invalidVarint => "invalid varint"
  | .invalidKey key => s!"invalid key value: {key}"
  | .invalidWireType code => s!"invalid wire type value: {code}"
  | .invalidTag => "invalid tag value: 0"
  | .wireTypeMismatch actual expected =>
    s!"invalid wire type: {actual.title} (expected {expected.title})"
  | .bufferUnderflow => "buffer underflow"
  | .lengthExceeded => "delimited length exceeded"
  | .unexpectedGroupEnd => "unexpected end group tag"
  | .recursionLimit => "recursion limit reached"
  | .notUtf8 => "invalid string value: data is not UTF-8 encoded"

structure Fault where
  /-- The fields around the fault as (message, field), innermost first. -/
  path : List (String × String)
  reason : Reason
  deriving DecidableEq, Repr

def Fault.bare (reason : Reason) : Fault := ⟨[], reason⟩

/-- The fault as seen from one level further out. -/
def Fault.within (message field : String) (fault : Fault) : Fault :=
  { fault with path := fault.path ++ [(message, field)] }

def Fault.message (fault : Fault) : String :=
  let levels := fault.path.map fun (message, field) => s!"{message}.{field}: "
  "failed to decode Protobuf message: " ++ String.join levels ++ fault.reason.message

end CargoEvents.Wire
