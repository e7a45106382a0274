import CargoEvents.Json.Value

/-! # Durations

Whole seconds below 2⁶⁴ and nanoseconds below 10⁹.
-/
namespace CargoEvents
open Json (Value)

structure Duration where
  secs : Nat
  nanos : Nat
  secs_lt : secs < UInt64.size
  nanos_lt : nanos < 1_000_000_000
  deriving DecidableEq

namespace Duration

def zero : Duration := ⟨0, 0, by decide, by decide⟩

def isZero (d : Duration) : Bool := d.secs == 0 && d.nanos == 0

/-- `ms` milliseconds, which fewer than 2⁶⁴ of them are. -/
def ofMillis (ms : Nat) : Duration :=
  ⟨ms / 1000 % UInt64.size, ms % 1000 * 1_000_000, Nat.mod_lt _ (by decide), by omega⟩

/-- Nanoseconds past the second are carried over, if the seconds can take them. -/
def of? (secs nanos : Nat) : Option Duration :=
  if h : secs + nanos / 1_000_000_000 < UInt64.size then
    some ⟨secs + nanos / 1_000_000_000, nanos % 1_000_000_000, h, Nat.mod_lt _ (by decide)⟩
  else none

/-- The whole milliseconds that have passed once the duration has, at a millisecond's grain. -/
def ceilMillis (d : Duration) : Nat := d.secs * 1000 + (d.nanos + 999_999) / 1_000_000

def toJson (d : Duration) : Value := .obj [("secs", .int d.secs), ("nanos", .int d.nanos)]

/-- A duration admits no other fields. -/
def ofJson? (v : Value) : Option Duration := do
  let field ← v.closedRecord? ["secs", "nanos"]
  of? (← (← field "secs").nat? UInt64.size) (← (← field "nanos").nat? UInt32.size)

end Duration
end CargoEvents
