import CargoEvents.Text.Blank

/-! # Decimal digits

Numbers of a fixed width, and runs of ASCII digits read back.
-/
namespace CargoEvents.Text

def isDigit (c : Char) : Bool := '0' ≤ c && c ≤ '9'

def digitValue (c : Char) : Nat := c.toNat - '0'.toNat

def digitChar (n : Nat) : Char := Char.ofNat ('0'.toNat + n % 10)

/-- The last `width` digits of `n`. -/
def padded : Nat → Nat → List Char
  | 0, _ => []
  | width + 1, n => padded width (n / 10) ++ [digitChar n]

def atLeast (width n : Nat) : List Char :=
  let digits := Nat.toDigits 10 n
  List.replicate (width - digits.length) '0' ++ digits

def value (digits : List Char) : Nat := digits.foldl (fun n c => 10 * n + digitValue c) 0

/-- A run of at least one and at most `most` digits, taken as long as it goes. -/
def readDigits (most : Nat) (cs : List Char) : Option (Nat × List Char) :=
  let run := (cs.take most).takeWhile isDigit
  if run = [] then none else some (value run, cs.drop run.length)

def readExactly (count : Nat) (cs : List Char) : Option (Nat × List Char) :=
  let run := cs.take count
  if run.length = count ∧ run.all isDigit then some (value run, cs.drop count) else none

def readChar (c : Char) : List Char → Option (List Char)
  | d :: rest => if d = c then some rest else none
  | [] => none

/-- A whole number below `bound`: an optional plus sign and ASCII digits. -/
def readNat (bound : Nat) (s : String) : Option Nat :=
  let digits := match s.toList with
    | '+' :: rest => rest
    | cs => cs
  if digits = [] ∨ !digits.all isDigit then none
  else if value digits < bound then some (value digits) else none

end CargoEvents.Text
