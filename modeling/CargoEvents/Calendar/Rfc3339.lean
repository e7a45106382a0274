import CargoEvents.Calendar.Instant
import CargoEvents.Text.Digits

/-! # RFC 3339 text

Instants are written in UTC with `Z`, years outside 0..9999 with a sign. Reading takes any
offset; the lenient reader also takes such years, blanks between the parts, and `UTC`.
-/
namespace CargoEvents.Calendar
open Text

namespace Rfc3339

def yearText (year : Int) : List Char :=
  if 0 ≤ year ∧ year ≤ 9999 then padded 4 year.toNat
  else (if year < 0 then '-' else '+') :: atLeast 4 year.natAbs

/-- No digits, 3, 6 or 9: the fewest groups of three that are exact. -/
def fractionText (nanos : Nat) : List Char :=
  if nanos = 0 then []
  else if nanos % 1_000_000 = 0 then '.' :: padded 3 (nanos / 1_000_000)
  else if nanos % 1_000 = 0 then '.' :: padded 6 (nanos / 1_000)
  else '.' :: padded 9 nanos

def chars (i : Instant) (fraction : List Char) : List Char :=
  yearText i.date.year ++ '-' :: padded 2 i.date.month ++ '-' :: padded 2 i.date.day ++
    'T' :: padded 2 i.hour ++ ':' :: padded 2 i.minute ++ ':' :: padded 2 i.second ++
    fraction ++ ['Z']

def render (i : Instant) : String := String.ofList (chars i (fractionText i.fraction))

def renderWhole (i : Instant) : String := String.ofList (chars i [])

/-- A local date and time with its distance from UTC in seconds. -/
structure Local where
  date : Civil
  hour : Nat
  minute : Nat
  second : Nat
  nanos : Nat
  offset : Int

namespace Local

/-- Second 60 is a leap second. -/
def Valid (l : Local) : Prop :=
  l.date.Valid ∧ l.hour < 24 ∧ l.minute < 60 ∧ l.second ≤ 60 ∧ -86400 < l.offset ∧ l.offset < 86400

instance (l : Local) : Decidable l.Valid := inferInstanceAs (Decidable (_ ∧ _))

/-- Seconds as written, from the start of 1970. -/
def seconds (l : Local) : Int :=
  l.date.toDays * 86400 + l.hour * 3600 + l.minute * 60 + (if l.second = 60 then 59 else l.second)

/-- Nanoseconds since the start of that second, which a leap second prolongs. -/
def subseconds (l : Local) : Nat := l.nanos + if l.second = 60 then nanosPerSecond else 0

/-- Days are within the years an instant may have, both as written and in UTC. -/
def toInstant? (l : Local) : Option Instant :=
  if l.Valid ∧ firstSecond ≤ l.seconds ∧ l.seconds ≤ lastSecond then
    Instant.of? (l.seconds - l.offset) l.subseconds
  else none

end Local

/-- At most nine digits count; those after them are dropped. -/
def readFraction : List Char → Option (Nat × List Char)
  | '.' :: rest => do
    let (n, after) ← readDigits 9 rest
    let count := rest.length - after.length
    some (n * Nat.pow 10 (9 - count), after.dropWhile isDigit)
  | rest => some (0, rest)

/-- `Z`, or a signed hour and minute; `separator` takes what stands between the two. -/
def readOffset (separator : List Char → Option (List Char)) :
    List Char → Option (Int × List Char)
  | [] => none
  | c :: rest => do
    if c = 'Z' ∨ c = 'z' then return (0, rest)
    let negative := c = '-' ∨ c = '\u2212'
    if ¬negative ∧ c ≠ '+' then none
    let (hours, rest) ← readExactly 2 rest
    let rest ← separator rest
    let (minutes, rest) ← readExactly 2 rest
    if 60 ≤ minutes then none
    let seconds : Int := hours * 3600 + minutes * 60
    return (if negative then -seconds else seconds, rest)

def readDateEnd : List Char → Option (List Char)
  | c :: rest => if c = 'T' ∨ c = 't' ∨ c = ' ' then some rest else none
  | [] => none

/-- A year of up to four digits, or of any length after a sign. -/
def readYear (cs : List Char) : Option (Int × List Char) :=
  match trimStart cs with
  | '-' :: rest => (readDigits rest.length rest).map fun (n, rest) => (-(n : Int), rest)
  | '+' :: rest => (readDigits rest.length rest).map fun (n, rest) => ((n : Int), rest)
  | rest => (readDigits 4 rest).map fun (n, rest) => ((n : Int), rest)

def readPart (cs : List Char) : Option (Nat × List Char) := readDigits 2 (trimStart cs)

def readMark (c : Char) (cs : List Char) : Option (List Char) := readChar c (trimStart cs)

def dropSeparators (cs : List Char) : List Char := cs.dropWhile fun c => c = ':' || isBlank c

def readZone (cs : List Char) : Option (Int × List Char) :=
  if (cs.take 3).map Char.toUpper = ['U', 'T', 'C'] then some (0, cs.drop 3)
  else readOffset (fun cs => some (dropSeparators cs)) cs

structure Reader where
  year : List Char → Option (Int × List Char)
  mark : Char → List Char → Option (List Char)
  part : List Char → Option (Nat × List Char)
  zone : List Char → Option (Int × List Char)
  /-- What must be left of the text at the end, which is nothing. -/
  leftover : List Char → List Char

def Reader.readLocal (r : Reader) (text : String) : Option Local := do
  let (year, cs) ← r.year text.toList
  let cs ← r.mark '-' cs
  let (month, cs) ← r.part cs
  let cs ← r.mark '-' cs
  let (day, cs) ← r.part cs
  let cs ← readDateEnd cs
  let (hour, cs) ← r.part cs
  let cs ← r.mark ':' cs
  let (minute, cs) ← r.part cs
  let cs ← r.mark ':' cs
  let (second, cs) ← r.part cs
  let (nanos, cs) ← readFraction cs
  let (offset, cs) ← r.zone cs
  if r.leftover cs ≠ [] then none
  else some ⟨⟨year, month, day⟩, hour, minute, second, nanos, offset⟩

/-- Exactly the form of RFC 3339. -/
def Reader.strict : Reader where
  year cs := (readExactly 4 cs).map fun (n, rest) => ((n : Int), rest)
  mark := readChar
  part := readExactly 2
  zone := readOffset (readChar ':')
  leftover cs := cs

/-- Blanks may stand between the parts, and a part may have one digit. -/
def Reader.lenient : Reader where
  year := readYear
  mark := readMark
  part := readPart
  zone cs := readZone (trimStart cs)
  leftover := trimStart

def readStrict (text : String) : Option Instant :=
  (Reader.strict.readLocal text).bind Local.toInstant?

def read (text : String) : Option Instant := (Reader.lenient.readLocal text).bind Local.toInstant?

end Rfc3339
end CargoEvents.Calendar
