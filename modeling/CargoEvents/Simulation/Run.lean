import CargoEvents.Bus.Delivering
import CargoEvents.Event.Samples
import CargoEvents.Simulation.Script
import CargoEvents.Tracking.Handlers

/-! # Buses in virtual time

Dispatchers take their steps in turn. Time stands still while any of them can take one and
then passes to the next moment that something waits for. Dispatchers that go on pulling
deliveries without time passing are held up after `burst` of them until it does.
-/
namespace CargoEvents

namespace Simulation

inductive Handler
  | scripted (number : Nat) (logged : Bool)
  /-- Keeps cargo views up to date, and is logged. -/
  | tracking
  deriving DecidableEq, Repr

/-- What a dispatcher waits for besides its stream. -/
inductive Wait
  | nothing
  /-- A permit; of those that wait for one the lowest ticket gets it. -/
  | permit (label : String) (ticket : Nat)
  | moment (time : Nat)
  deriving DecidableEq, Repr

structure Task where
  bus : Nat
  dispatcher : Nat
  wait : Wait := .nothing
  deriving DecidableEq, Repr

structure Closing where
  bus : Nat
  /-- When the dispatcher is no longer waited for. -/
  deadline : Nat
  result : Option (Except BusError Unit) := none

/-- How many deliveries may be pulled at one moment. -/
def burst : Nat := 2000

end Simulation

open Simulation in
structure Simulation where
  network : Network Handler := {}
  company : Company := {}
  repository : Tracking.Repository := {}
  /-- What the tracking handlers take for the present. -/
  clock : Calendar.Instant := Samples.clock
  /-- Milliseconds since the beginning. -/
  now : Nat := 0
  permits : Table Nat := ∅
  tickets : Nat := 0
  tasks : List Task := []
  closings : List Closing := []
  /-- Deliveries pulled at this moment. -/
  pulled : Nat := 0
  /-- Whether dispatchers were held up since this was last reset. -/
  isBusy : Bool := false

namespace Simulation

def onNetwork (s : Simulation) (f : Network Handler → Network Handler) : Simulation :=
  { s with network := f s.network }

/-! ## Runs of handlers -/

def returned (s : Simulation) (t : Task) (e : Event) (logged : Bool)
    (result : Except HandlerError Unit) : Simulation :=
  s.onNetwork fun net =>
    let net := if logged then net.note (.logged (.ofRun e result)) else net
    net.complete t.bus t.dispatcher result

def finish (s : Simulation) (t : Task) (e : Event) : Handler → Simulation
  | .tracking =>
    let (result, repository) := Tracking.handle s.clock e s.repository
    { s with repository }.returned t e true result
  | .scripted n logged =>
    if (s.company.script n).panics then s.onNetwork (·.panic t.bus t.dispatcher)
    else
      let (result, company) := Company.finish n s.company
      { s with company }.returned t e logged result

def proceed (s : Simulation) (t : Task) (e : Event) (h : Handler) : Wait × Simulation :=
  let sleep := match h with
    | .tracking => 0
    | .scripted n _ => (s.company.script n).sleep
  if sleep = 0 then (.nothing, s.finish t e h) else (.moment (s.now + sleep), s)

def begin (s : Simulation) (t : Task) (e : Event) (h : Handler) : Wait × Simulation :=
  match h with
  | .tracking => s.proceed t e h
  | .scripted n _ =>
    let script := s.company.script n
    let s := { s with company := s.company.note (.entered script.label e) }
    if script.gated then (.permit script.label s.tickets, { s with tickets := s.tickets + 1 })
    else s.proceed t e h

def permitsFor (s : Simulation) (label : String) : Nat := (s.permits.get? label).getD 0

/-- Whether a permit is there that no earlier ticket is in line for. -/
def mayPass (s : Simulation) (label : String) (ticket : Nat) : Bool :=
  0 < s.permitsFor label && s.tasks.all fun t => match t.wait with
    | .permit l earlier => l != label || ticket ≤ earlier
    | _ => true

/-! ## Steps -/

def pull (s : Simulation) (t : Task) : Simulation :=
  let s := s.onNetwork (·.pull t.bus t.dispatcher)
  match (s.network.dispatcher? t.bus t.dispatcher).bind (·.2.position.delivery?) with
  | none => s
  | some _ => { s with pulled := s.pulled + 1, isBusy := s.isBusy || burst ≤ s.pulled + 1 }

def step? (s : Simulation) (t : Task) : Option (Wait × Simulation) :=
  match s.network.dispatcher? t.bus t.dispatcher with
  | none => none
  | some (bus, { stream, position }) =>
    let act (f : Nat → Nat → Network Handler → Network Handler) :=
      some (Wait.nothing, s.onNetwork (f t.bus t.dispatcher))
    let delay := bus.config.requeueDelay.ceilMillis
    match position, t.wait with
    | .pulling, _ =>
      if bus.shutdown then act Network.pull
      else if burst ≤ s.pulled ∨ stream.waitedAt = some s.network.broker.signals then none
      else some (.nothing, s.pull t)
    | .handling _ r e, .nothing => some (s.begin t e r.handler)
    | .handling _ r e, .permit label ticket =>
      if s.mayPass label ticket then
        some ({ s with permits := s.permits.modify label (· - 1) }.proceed t e r.handler)
      else none
    | .handling _ r e, .moment time =>
      if time ≤ s.now then some (.nothing, s.finish t e r.handler) else none
    | .acknowledging _, _ => act Network.acknowledge
    | .pausing .., .moment time =>
      if bus.shutdown ∨ time ≤ s.now then act Network.resume else none
    | .pausing .., _ =>
      if bus.shutdown ∨ delay = 0 then act Network.resume else some (.moment (s.now + delay), s)
    | .ended, _ => none

def isAtRest (s : Simulation) (bus : Nat) : Bool :=
  s.network.buses[bus]?.all fun b => b.dispatchers.all (·.position.isEnded)

def closed? (s : Simulation) (c : Closing) : Option (Except BusError Unit × Simulation) :=
  let isClosing := s.network.buses[c.bus]?.any (·.closing.isSome)
  if c.result.isNone ∧ (¬isClosing ∨ s.isAtRest c.bus ∨ c.deadline ≤ s.now) then
    let (result, network) := Network.finishClose c.bus s.network
    some (result, { s with network })
  else none

/-- One turn for each task and each closing, and whether any of them took a step. -/
def round (s : Simulation) : Bool × Simulation :=
  let (any, s) := (List.range s.tasks.length).foldl (fun (any, s) n =>
    match s.tasks[n]?.bind s.step? with
    | none => (any, s)
    | some (wait, s) => (true, { s with tasks := s.tasks.modify n fun t => { t with wait } }))
    (false, s)
  (List.range s.closings.length).foldl (fun (any, s) n =>
    match s.closings[n]?.bind s.closed? with
    | none => (any, s)
    | some (result, s) =>
      (true, { s with closings := s.closings.modify n fun c => { c with result := some result } }))
    (any, s)

def settleIn : Nat → Simulation → Simulation
  | 0, s => s
  | rounds + 1, s => match s.round with
    | (true, s) => settleIn rounds s
    | (false, s) => s

/-- Lets everything run that can without time passing. A delivery takes a dispatcher a few
steps, and a burst of deliveries is all that a moment has. -/
def settle (s : Simulation) : Simulation :=
  s.settleIn ((s.tasks.length + 1) * (10 * burst + s.network.broker.deliveryFaults.length))

/-! ## Time -/

def moments (s : Simulation) : List Nat :=
  (s.tasks.filterMap fun t => match t.wait with
    | .moment time => some time
    | _ => none) ++
  s.closings.filterMap fun c => if c.result.isNone then some c.deadline else none

/-- The next moment that something waits for, if it is before `limit`. -/
def next (s : Simulation) (limit : Nat) : Nat :=
  (s.moments.filter (s.now < ·)).foldl min limit

def runIn (limit : Nat) (done : Simulation → Bool) : Nat → Simulation → Simulation
  | 0, s => s.settle
  | moments + 1, s =>
    let s := s.settle
    if done s ∨ limit ≤ s.now then s
    else runIn limit done moments { s with now := s.next limit, pulled := 0 }

/-- Lets time pass until `done`, or until it is `limit`. -/
def runUntil (s : Simulation) (limit : Nat) (done : Simulation → Bool) : Simulation :=
  runIn limit done (limit - s.now) s

def elapse (s : Simulation) (millis : Nat) : Simulation :=
  s.runUntil (s.now + millis) fun _ => false

end Simulation
end CargoEvents
