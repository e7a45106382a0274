import CargoEvents.Calendar.Civil
import CargoEvents.Event.Basic

/-! # Instants

A moment of UTC with nanoseconds, from year -262143 to year 262142. Inside the last second
of a minute the nanoseconds may run on to 2·10⁹, which is how a leap second is held.
-/
namespace CargoEvents.Calendar

/-- -262143-01-01T00:00:00 -/
def firstSecond : Int := -8334601228800

/-- +262142-12-31T23:59:59 -/
def lastSecond : Int := 8210266876799

def nanosPerSecond : Nat := 1_000_000_000

/-- Nanoseconds that a second of a minute may hold. -/
def NanosFit (seconds : Int) (nanos : Nat) : Prop :=
  nanos < nanosPerSecond ∨ nanos < 2 * nanosPerSecond ∧ seconds % 60 = 59

instance (seconds : Int) (nanos : Nat) : Decidable (NanosFit seconds nanos) :=
  inferInstanceAs (Decidable (_ ∨ _))

structure Instant where
  seconds : Int
  nanos : Nat
  first_le : firstSecond ≤ seconds
  le_last : seconds ≤ lastSecond
  nanos_fit : NanosFit seconds nanos
  deriving DecidableEq

namespace Instant

def of? (seconds : Int) (nanos : Nat) : Option Instant :=
  if h : firstSecond ≤ seconds ∧ seconds ≤ lastSecond ∧ NanosFit seconds nanos then
    some ⟨seconds, nanos, h.1, h.2.1, h.2.2⟩
  else none

def ofTimestamp? (t : Timestamp) : Option Instant :=
  if t.nanos < 0 then none else of? t.seconds.toInt t.nanos.toInt.toNat

def int32? (n : Nat) : Option Int32 := if n < 2_147_483_648 then some (.ofInt n) else none

/-- Nanoseconds that did not fit would be left out. -/
def toTimestamp (i : Instant) : Timestamp := ⟨.ofInt i.seconds, (int32? i.nanos).getD 0⟩

def date (i : Instant) : Civil := .ofDays (i.seconds / 86400)

/-- Hour, minute and second of the day, a leap second as second 60. -/
def hour (i : Instant) : Nat := (i.seconds % 86400 / 3600).toNat
def minute (i : Instant) : Nat := (i.seconds % 3600 / 60).toNat
def second (i : Instant) : Nat := (i.seconds % 60).toNat + i.nanos / nanosPerSecond
def fraction (i : Instant) : Nat := i.nanos % nanosPerSecond

theorem toTimestamp_nanos (i : Instant) : i.nanos < 2_147_483_648 := by
  rcases i.nanos_fit with h | h <;> simp only [nanosPerSecond] at h <;> omega

end Instant
end CargoEvents.Calendar
