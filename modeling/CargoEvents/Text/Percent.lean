import CargoEvents.Text.Hex

/-! # Percent-encoded texts

Texts in which a percent sign and two digits stand for a byte of UTF-8. Not all such bytes
make a text.
-/
namespace CargoEvents.Text

def utf8 (c : Char) : List UInt8 := c.toString.toUTF8.data.toList

/-- A percent sign that no two digits follow stands for itself. -/
def percentDecoded : List Char → List UInt8
  | '%' :: high :: low :: rest => match hexByte? high low with
    | some byte => byte :: percentDecoded rest
    | none => utf8 '%' ++ percentDecoded (high :: low :: rest)
  | c :: rest => utf8 c ++ percentDecoded rest
  | [] => []

/-- How many bytes have to follow the first of a character, and the least and the greatest
that the next of them may be. -/
def following? (first : UInt8) : Option (Nat × UInt8 × UInt8) :=
  if first < 0x80 then some (0, 0x80, 0xbf)
  else if 0xc2 ≤ first ∧ first ≤ 0xdf then some (1, 0x80, 0xbf)
  else if first = 0xe0 then some (2, 0xa0, 0xbf)
  else if first = 0xed then some (2, 0x80, 0x9f)
  else if 0xe1 ≤ first ∧ first ≤ 0xef then some (2, 0x80, 0xbf)
  else if first = 0xf0 then some (3, 0x90, 0xbf)
  else if first = 0xf4 then some (3, 0x80, 0x8f)
  else if 0xf1 ≤ first ∧ first ≤ 0xf3 then some (3, 0x80, 0xbf)
  else none

/-- Why bytes are no text, where `seen` bytes of the character that starts at `index` have
been read and `missing` are to come. -/
def utf8Fault (index seen missing : Nat) (low high : UInt8) : List UInt8 → String
  | [] => s!"incomplete utf-8 byte sequence from index {index}"
  | byte :: rest =>
    if missing = 0 then match following? byte with
      | none => s!"invalid utf-8 sequence of 1 bytes from index {index}"
      | some (0, _, _) => utf8Fault (index + 1) 0 0 0 0 rest
      | some (more, low, high) => utf8Fault index 1 more low high rest
    else if byte < low ∨ high < byte then
      s!"invalid utf-8 sequence of {seen} bytes from index {index}"
    else if missing = 1 then utf8Fault (index + seen + 1) 0 0 0 0 rest
    else utf8Fault index (seen + 1) (missing - 1) 0x80 0xbf rest

def percentText (cs : List Char) : Except String String :=
  let bytes := percentDecoded cs
  match String.fromUTF8? ⟨bytes.toArray⟩ with
  | some text => .ok text
  | none => .error (utf8Fault 0 0 0 0 0 bytes)

end CargoEvents.Text
