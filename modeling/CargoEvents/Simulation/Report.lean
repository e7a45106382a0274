import CargoEvents.Simulation.Commands

/-! # Reports on steps

What is told of a step: the states of the buses and what happened since the report before.
After a step in which dispatchers were held up nobody can tell how often they ran, so
calls and errors are left out from then on.
-/
namespace CargoEvents.Simulation

structure Report where
  /-- Whether dispatchers were held up. -/
  busy : Bool
  states : List String
  /-- Each with the number of the bus before it. -/
  calls : List String := []
  notes : List Note := []
  errors : List (Nat × BusError) := []
  logs : List LogRecord := []

structure Watched where
  simulation : Simulation := {}
  /-- How long the history was at the report before. -/
  told : Nat := 0
  /-- For each bus, how often its state had been set when it was last looked at. -/
  seen : List Nat := []
  wasBusy : Bool := false
  hasBeenBusy : Bool := false

def withoutRepeats : List Note → List Note
  | [] => []
  | n :: later => match withoutRepeats later with
    | [] => [n]
    | m :: ms => if n = m then m :: ms else n :: m :: ms

def stateName (b : Bus Handler) : String := if b.isDropped then "dropped" else b.state.name

namespace Watched

def recent (w : Watched) : List (Entry Handler) := w.simulation.network.since w.told

def received (w : Watched) (bus : Nat) : List BusError :=
  if w.simulation.network.buses[bus]?.any (·.sink == .receiver) then
    w.recent.filterMap fun
      | .reported i e => if i = bus then some e else none
      | _ => none
  else []

def callsMade (w : Watched) : List String :=
  w.recent.filterMap fun
    | .called i call _ => some s!"{i}:{call.text}"
    | _ => none

def logged (w : Watched) : List LogRecord :=
  w.recent.filterMap fun
    | .logged r => some r
    | _ => none

def report (w : Watched) : Report × Watched :=
  let s := w.simulation
  let notes := s.company.notes.reverse
  let buses := s.network.buses
  let states := buses.map stateName
  let next : Watched := { w with
    simulation := { s with company := { s.company with notes := [] }, isBusy := false }
    told := s.network.history.length
    wasBusy := s.isBusy
    hasBeenBusy := w.hasBeenBusy || s.isBusy }
  let quiet : Report := { busy := s.isBusy, states }
  if s.isBusy then (quiet, next)
  else
    let quiet := { quiet with notes := if w.wasBusy then withoutRepeats notes else notes }
    if w.hasBeenBusy then (quiet, next)
    else
      let errors := (List.range buses.length).flatMap fun i => (w.received i).map fun e => (i, e)
      ({ quiet with calls := w.callsMade, errors, logs := w.logged }, next)

/-- Whether a bus's state was set since it was last looked at, or nothing once neither the
bus nor its dispatcher can set it any more. -/
def look (w : Watched) (bus : Nat) : Option Bool × BusState × Watched :=
  match w.simulation.network.buses[bus]? with
  | none => (none, .closed, w)
  | some b =>
    let seen := w.seen[bus]?.getD 0
    let changed := if b.isDropped ∧ w.simulation.isAtRest bus then none
      else some (seen != b.changes)
    (changed, b.state, { w with
      seen := ((List.range w.simulation.network.buses.length).map fun i =>
        if i = bus then b.changes else w.seen[i]?.getD 0) })

/-- Waits until the bus's receiver has got `count` errors, for `millis` at most. -/
def awaitErrors (w : Watched) (bus count millis : Nat) : Bool × Watched :=
  let reached (s : Simulation) : Bool := count ≤ ({ w with simulation := s }.received bus).length
  let s := w.simulation.runUntil (w.simulation.now + millis) reached
  (reached s, { w with simulation := s })

end Watched
end CargoEvents.Simulation
