/-! # Base 128 numbers

A number is written as groups of seven bits, lowest group first; every byte but the
last has its top bit set. Ten groups hold 64 bits, so a reader refuses an eleventh
byte, and a tenth one above 1.
-/
namespace CargoEvents.Wire

abbrev Bytes := List UInt8

def writeGroups : Nat → Nat → Bytes
  | 0, n => [UInt8.ofNat n]
  | more + 1, n =>
    if n < 128 then [UInt8.ofNat n]
    else UInt8.ofNat (n % 128 + 128) :: writeGroups more (n / 128)

def writeVarint (n : Nat) : Bytes := writeGroups 9 n

/-- Reads at most `groups` bytes. The last one allowed may only carry the 64th bit. -/
def readGroups : Nat → Bytes → Option (Nat × Bytes)
  | 0, _ => none
  | _ + 1, [] => none
  | more + 1, b :: rest =>
    if b < 128 then
      if more = 0 ∧ 1 < b then none else some (b.toNat, rest)
    else (readGroups more rest).map fun (n, rest) => (b.toNat - 128 + 128 * n, rest)

def readVarint (bytes : Bytes) : Option (Nat × Bytes) := readGroups 10 bytes

/-- The number of bytes `writeVarint` takes, from the position of the highest bit alone. -/
def varintSize (n : Nat) : Nat := ((n ||| 1).log2 * 9 + 73) / 64

/-- The eight or four bytes of a fixed-width value, and all the others, are kept as they come. -/
def splitExact (count : Nat) (bytes : Bytes) : Option (Bytes × Bytes) :=
  if count ≤ bytes.length then some (bytes.splitAt count) else none

end CargoEvents.Wire
