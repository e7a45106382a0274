/-! # JSON documents

Documents, and reading parts of them. A record may be given as an object, where unknown
fields are ignored and no other field may be repeated, or as an array of all its fields in
order.
-/
namespace CargoEvents.Json

inductive Value
  | null
  | bool (b : Bool)
  | int (n : Int)
  /-- A number that is no integer, as it was written. -/
  | real (text : String)
  | str (s : String)
  | arr (items : List Value)
  | obj (fields : List (String × Value))
  deriving Repr, BEq, Inhabited

namespace Value

def bool? : Value → Option Bool
  | bool b => some b
  | _ => none

def str? : Value → Option String
  | str s => some s
  | _ => none

/-- An integer from 0 up to, not including, `bound`. -/
def nat? (bound : Nat) : Value → Option Nat
  | int n => if 0 ≤ n ∧ n < bound then some n.toNat else none
  | _ => none

def list? {α : Type} (read : Value → Option α) : Value → Option (List α)
  | arr items => items.mapM read
  | _ => none

def option? {α : Type} (read : Value → Option α) : Value → Option (Option α)
  | null => some none
  | v => (read v).map some

def field? (fields : List (String × Value)) (name : String) : Option Value :=
  (fields.find? (·.1 == name)).map (·.2)

/-- No name is that of two fields. -/
def Single (names : List String) (fields : List (String × Value)) : Prop :=
  ∀ name ∈ names, fields.countP (·.1 == name) ≤ 1

instance (names : List String) (fields : List (String × Value)) :
    Decidable (Single names fields) :=
  inferInstanceAs (Decidable (∀ name ∈ names, fields.countP (·.1 == name) ≤ 1))

/-- How to find the fields of a record with the fields `names`. -/
def record? (names : List String) : Value → Option (String → Option Value)
  | obj fields => if Single names fields then some (field? fields) else none
  | arr items =>
    if items.length = names.length then some (field? (names.zip items)) else none
  | _ => none

def closedRecord? (names : List String) : Value → Option (String → Option Value)
  | obj fields =>
    if fields.all fun (name, _) => names.contains name then (obj fields).record? names else none
  | v => v.record? names

def orNull : Option Value → Value
  | some v => v
  | none => null

/-- One of several names: written alone, or as the key of null. -/
def name? : Value → Option String
  | str s => some s
  | obj [(s, null)] => some s
  | _ => none

def ofOption {α : Type} (write : α → Value) : Option α → Value
  | none => null
  | some a => write a

end Value
end CargoEvents.Json
