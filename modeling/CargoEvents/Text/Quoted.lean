import CargoEvents.Text.Invisible

/-! # Values on one line

Log records show values as `Name { field: value }`, with strings in quotes. Inside the
quotes a character that does not show on its own is written as `\u` and its code point in
braces.
-/
namespace CargoEvents.Text

def escaped (c : Char) : List Char :=
  if c = '\x00' then ['\\', '0']
  else if c = '\t' then ['\\', 't']
  else if c = '\r' then ['\\', 'r']
  else if c = '\n' then ['\\', 'n']
  else if c = '\\' then ['\\', '\\']
  else if c = '"' then ['\\', '"']
  else if isInvisible c then ['\\', 'u', '\x7b'] ++ Nat.toDigits 16 c.toNat ++ ['\x7d']
  else [c]

def quoted (s : String) : String := String.ofList ('"' :: s.toList.flatMap escaped ++ ['"'])

def shownRecord (name : String) (fields : List (String × String)) : String :=
  let shown := fields.map fun (field, value) => field ++ ": " ++ value
  name ++ " \x7b " ++ ", ".intercalate shown ++ " \x7d"

def shownTuple (name value : String) : String := name ++ "(" ++ value ++ ")"

def shownOption {α : Type} (shown : α → String) : Option α → String
  | none => "None"
  | some a => shownTuple "Some" (shown a)

def shownList {α : Type} (shown : α → String) (items : List α) : String :=
  "[" ++ ", ".intercalate (items.map shown) ++ "]"

end CargoEvents.Text
