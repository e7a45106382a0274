/-! # Hexadecimal bytes

Bytes as pairs of lower-case digits, and pairs of digits of either case read back.
-/
namespace CargoEvents.Text

def hexDigit (n : Nat) : Char := Nat.digitChar (n % 16)

def hex (bytes : List UInt8) : String :=
  String.ofList (bytes.flatMap fun b => [hexDigit (b.toNat / 16), hexDigit b.toNat])

def hexValue? (c : Char) : Option Nat :=
  if '0' ≤ c ∧ c ≤ '9' then some (c.toNat - '0'.toNat)
  else if 'a' ≤ c ∧ c ≤ 'f' then some (c.toNat - 'a'.toNat + 10)
  else if 'A' ≤ c ∧ c ≤ 'F' then some (c.toNat - 'A'.toNat + 10)
  else none

def hexByte? (high low : Char) : Option UInt8 := do
  return .ofNat (16 * (← hexValue? high) + (← hexValue? low))

def ofHex? : List Char → Option (List UInt8)
  | [] => some []
  | [_] => none
  | high :: low :: rest => do return (← hexByte? high low) :: (← ofHex? rest)

end CargoEvents.Text
