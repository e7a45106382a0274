import CargoEvents.Call
import CargoEvents.Error

/-! # Scripted handlers

Handlers that do what a script says and note when they begin and end. One that is to fail
for good has a negative count of failures.
-/
namespace CargoEvents.Simulation

structure Script where
  label : String
  /-- How many runs are still to fail. -/
  failures : Int := 0
  error : HandlerError := .rejected "scripted"
  /-- Whether a run waits for a permit of its label. -/
  gated : Bool := false
  /-- Milliseconds a run takes. -/
  sleep : Nat := 0
  panics : Bool := false
  deriving DecidableEq, Repr

inductive Note
  | entered (label : String) (e : Event)
  | left (label : String) (succeeded : Bool)
  deriving DecidableEq, Repr

def Script.finish (s : Script) : Except HandlerError Unit × Script :=
  if s.failures = 0 then (.ok (), s)
  else (.error s.error, { s with failures := if 0 < s.failures then s.failures - 1 else s.failures })

/-- Scripted handlers, by number, and what they noted, newest first. -/
structure Company where
  scripts : List Script := []
  notes : List Note := []

namespace Company

def hire (c : Company) (s : Script) : Company := { c with scripts := c.scripts ++ [s] }

def script (c : Company) (h : Nat) : Script := c.scripts[h]?.getD { label := "" }

def note (c : Company) (n : Note) : Company := { c with notes := n :: c.notes }

def finish (h : Nat) : Call HandlerError Company Unit := fun c =>
  let s := c.script h
  let (result, s') := s.finish
  (result, note { c with scripts := c.scripts.set h s' } (.left s.label result.isOk))

def run (h : Nat) (e : Event) : Call HandlerError Company Unit := fun c =>
  finish h (c.note (.entered (c.script h).label e))

end Company
end CargoEvents.Simulation
