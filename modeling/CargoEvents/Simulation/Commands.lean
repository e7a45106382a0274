import CargoEvents.Simulation.Run

/-! # Commands to buses in virtual time

What is asked of buses from outside. A command that waits lets time pass.
-/
namespace CargoEvents.Simulation

def call {ε α : Type} (c : Call ε (Network Handler) α) (s : Simulation) : Except ε α × Simulation :=
  let (result, network) := c s.network
  (result, { s with network })

def subscribe (bus : Nat) (kind : EventKind) (script : Script) (logged : Bool) (s : Simulation) :
    Except BusError Unit × Simulation :=
  call (Network.subscribe bus kind (.scripted s.company.scripts.length logged))
    { s with company := s.company.hire script }

/-- Subscribes the tracking handlers, up to the first that fails. -/
def subscribeTracking (bus : Nat) : Simulation → Except BusError Unit × Simulation :=
  call (Tracking.trackedKinds.forM fun kind => Network.subscribe bus kind .tracking)

def awaitClosed (bus : Nat) (s : Simulation) : Simulation :=
  match s.closings.find? fun c => c.bus == bus && c.result.isNone with
  | none => s
  | some c => s.runUntil c.deadline fun s => s.network.buses[bus]?.all (·.closing.isNone)

def start (bus : Nat) (s : Simulation) : Except BusError Unit × Simulation :=
  match call (Network.start bus) (s.awaitClosed bus) with
  | (.error e, s) => (.error e, s)
  | (.ok _, s) =>
    let dispatcher := (s.network.buses[bus]?.map (·.dispatchers.length)).getD 0 - 1
    (.ok (), { s with tasks := s.tasks ++ [{ bus, dispatcher }] })

def beginClose (bus : Nat) (s : Simulation) : Simulation :=
  let drain := (s.network.buses[bus]?.map (·.config.drainTimeout.ceilMillis)).getD 0
  { s.onNetwork (·.beginClose bus) with
    closings := s.closings ++ [{ bus, deadline := s.now + drain }] }

/-- Waits for the closing that began first and has not been waited for. -/
def awaitClosing (bus : Nat) (s : Simulation) : Except BusError Unit × Simulation :=
  match s.closings.findIdx? (·.bus == bus) with
  | none => (.ok (), s)
  | some n =>
    let limit := (s.closings[n]?.map (·.deadline)).getD 0
    let s := s.runUntil limit fun s => s.closings[n]?.any (·.result.isSome)
    ((s.closings[n]?.bind (·.result)).getD (.ok ()), { s with closings := s.closings.eraseIdx n })

def close (bus : Nat) (s : Simulation) : Except BusError Unit × Simulation :=
  awaitClosing bus (beginClose bus (s.awaitClosed bus))

def release (label : String) (count : Nat) (s : Simulation) : Simulation :=
  { s with permits := s.permits.insert label (s.permitsFor label + count) }

end CargoEvents.Simulation
