import CargoEvents.Text.Digits

/-! # Socket addresses

Numeric addresses with a port: `1.2.3.4:80`, `[2001:db8::1]:80`, `[fe80::1%3]:80`. Octets
have no leading zeros; an address of the longer form is written with its longest run of
zeros left out.
-/
namespace CargoEvents

inductive SocketAddress
  | v4 (octets : List Nat) (port : Nat)
  | v6 (groups : List Nat) (scope port : Nat)
  deriving DecidableEq, Repr

namespace SocketAddress
open Text

/-- A reader takes a value off the front, or refuses. -/
abbrev Reader (α : Type) := List Char → Option (α × List Char)

def digitOf? (radix : Nat) (c : Char) : Option Nat :=
  let d :=
    if isDigit c then some (digitValue c)
    else if 'a' ≤ c ∧ c ≤ 'f' then some (c.toNat - 'a'.toNat + 10)
    else if 'A' ≤ c ∧ c ≤ 'F' then some (c.toNat - 'A'.toNat + 10)
    else none
  d.filter (· < radix)

/-- All the digits that follow, at least one and at most `most`, of value below `bound`. -/
def number (radix bound : Nat) (most : Option Nat) (leadingZero : Bool) : Reader Nat := fun cs =>
  let run := cs.takeWhile fun c => (digitOf? radix c).isSome
  let n := run.foldl (fun n c => n * radix + (digitOf? radix c).getD 0) 0
  let tooLong := most.any (· < run.length)
  let badZero := !leadingZero && run.head? == some '0' && 1 < run.length
  if run = [] ∨ tooLong ∨ badZero ∨ bound ≤ n then none else some (n, cs.drop run.length)

/-- `count` octets, each but the first after a dot. -/
def octets : Nat → Bool → Reader (List Nat)
  | 0, _, cs => some ([], cs)
  | count + 1, first, cs => do
    let cs ← if first then some cs else readChar '.' cs
    let (n, cs) ← number 10 256 (some 3) false cs
    let (rest, cs) ← octets count false cs
    return (n :: rest, cs)

def ipv4 : Reader (List Nat) := octets 4 true

def afterColon {α : Type} (first : Bool) (read : Reader α) : Reader α := fun cs =>
  if first then read cs else (readChar ':' cs).bind read

/-- Up to `room` groups. Where two are left, an IPv4 address may stand for both and ends the
groups; the answer says whether one did. -/
def groups : Nat → Bool → List Char → List Nat × Bool × List Char
  | 0, _, cs => ([], false, cs)
  | room + 1, first, cs =>
    match if 1 ≤ room then afterColon first ipv4 cs else none with
    | some ([a, b, c, d], rest) => ([a * 256 + b, c * 256 + d], true, rest)
    | _ => match afterColon first (number 16 65536 (some 4) true) cs with
      | none => ([], false, cs)
      | some (n, rest) =>
        let (more, hasIpv4, rest) := groups room false rest
        (n :: more, hasIpv4, rest)

/-- Eight groups, or fewer around `::`, before which no IPv4 address may stand. -/
def ipv6 : Reader (List Nat) := fun cs =>
  let (head, hasIpv4, rest) := groups 8 true cs
  if head.length = 8 then some (head, rest)
  else if hasIpv4 then none
  else do
    let rest ← readChar ':' rest
    let rest ← readChar ':' rest
    let (tail, _, rest) := groups (8 - (head.length + 1)) true rest
    return (head ++ List.replicate (8 - head.length - tail.length) 0 ++ tail, rest)

def port : Reader Nat := fun cs => do number 10 65536 none true (← readChar ':' cs)

def scope (cs : List Char) : Nat × List Char :=
  ((readChar '%' cs).bind (number 10 UInt32.size none true)).getD (0, cs)

def read (text : String) : Option SocketAddress :=
  let cs := text.toList
  let short := do
    let (octets, cs) ← ipv4 cs
    let (port, cs) ← port cs
    if cs = [] then some (v4 octets port) else none
  let long := do
    let (groups, cs) ← ipv6 (← readChar '[' cs)
    let (scope, cs) := scope cs
    let (port, cs) ← port (← readChar ']' cs)
    if cs = [] then some (v6 groups scope port) else none
  short.or long

def dotted (octets : List Nat) : String := ".".intercalate (octets.map toString)

def colons (groups : List Nat) : String :=
  ":".intercalate (groups.map fun g => String.ofList (Nat.toDigits 16 g))

/-- Start and length of the first longest run of zeros. -/
def longestZeros (groups : List Nat) : Nat × Nat :=
  let starts := (List.range groups.length).map fun i =>
    (i, ((groups.drop i).takeWhile (· = 0)).length)
  starts.foldl (fun best run => if best.2 < run.2 then run else best) (0, 0)

def ipv6Text (groups : List Nat) : String :=
  match groups with
  | [0, 0, 0, 0, 0, 0xffff, a, b] =>
    "::ffff:" ++ dotted [a / 256, a % 256, b / 256, b % 256]
  | _ =>
    let (start, length) := longestZeros groups
    if 1 < length then colons (groups.take start) ++ "::" ++ colons (groups.drop (start + length))
    else colons groups

def text : SocketAddress → String
  | v4 octets port => s!"{dotted octets}:{port}"
  | v6 groups scope port =>
    let zone := if scope = 0 then "" else s!"%{scope}"
    s!"[{ipv6Text groups}{zone}]:{port}"

end SocketAddress
end CargoEvents
