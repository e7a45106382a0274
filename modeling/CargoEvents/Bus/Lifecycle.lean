import CargoEvents.Bus.Network

/-! # Life of a bus

What callers ask of a bus. While it drains and once it is closed it refuses all of them
without a call on its session.
-/
namespace CargoEvents

def Bus.enter {H : Type} (b : Bus H) (state : BusState) : Bus H :=
  { b with state, changes := b.changes + 1 }

namespace Network
variable {H : Type}

/-- Opens a session and declares the topology on it. A bus whose topology fails is no bus,
though its session stays. -/
def build (config : BusConfig) (sink : ErrorSink) (faults : List (String × BrokerError)) :
    Call BusError (Network H) Nat := fun s =>
  let i := s.buses.length
  let bus : Bus H := { config, session := s.broker.sessions.length, sink, faults }
  match (calls i).declare config.topology
      { s with broker := s.broker.openSession, buses := s.buses ++ [bus] } with
  | (.ok _, s) => (.ok i, s)
  | (.error e, s) => (.error e, { s with buses := s.buses.take i })

/-- Does `act` with bus `i`, unless it is closed or about to be. -/
def whileOpen {α : Type} (i : Nat) (act : Bus H → Call BusError (Network H) α) :
    Call BusError (Network H) α := fun s =>
  match s.buses[i]? with
  | none => (.error .closed, s)
  | some bus => if bus.state.isTerminal then (.error .closed, s) else act bus s

/-- Publishes over the bus's session, whatever the state of the bus. -/
def publishOver (i : Nat) (e : Event) : Call BusError (Network H) Unit := fun s =>
  match s.buses[i]? with
  | none => (.error .closed, s)
  | some bus => match (calls i).publishEvent bus.config.exchange e s with
    | (.ok _, s) => (.ok (), s.observe i [.published e.kind.name])
    | (.error error, s) => (.error error, s.observe i [.publishError e.kind.name])

def publish (i : Nat) (e : Event) : Call BusError (Network H) Unit :=
  whileOpen i fun _ => publishOver i e

/-- Binds the queue for a kind and, if that succeeds, registers the handler. -/
def subscribe (i : Nat) (kind : EventKind) (handler : H) : Call BusError (Network H) Unit :=
  whileOpen i fun bus => do
    (calls i).bind bus.config.topology kind.name
    modify (·.onBus i fun b => { b with registry := b.registry.insert kind handler })

def start (i : Nat) : Call BusError (Network H) Unit :=
  whileOpen i fun bus =>
    if bus.state = .consuming then throw .alreadyStarted
    else do
      let stream ← ExceptT.adapt .transportError
        (consume i bus.config.topology.queue.name bus.config.effectiveTag)
      modify (·.onBus i fun b =>
        { b.enter .consuming with dispatchers := b.dispatchers ++ [{ stream }] })

/-- Declares the topology again and binds the queue for every registered kind. -/
def restore (i : Nat) : Call BusError (Network H) Unit :=
  whileOpen i fun bus => do
    (calls i).declare bus.config.topology
    bus.registry.routingKeys.forM ((calls i).bind bus.config.topology)

/-- The first half of closing: stops the dispatcher and closes the session under it. -/
def beginClose (i : Nat) (s : Network H) : Network H :=
  match s.buses[i]? with
  | none => s
  | some bus =>
    if bus.state = .closed ∨ bus.closing.isSome then s
    else
      let (closed, s) := closeSession i (s.onBus i fun b => { b.enter .draining with shutdown := true })
      s.onBus i fun b => { b with closing := some closed }

/-- The second half, once the dispatcher has ended or has been waited for long enough. -/
def finishClose (i : Nat) : Call BusError (Network H) Unit := fun s =>
  match s.buses[i]?.bind (·.closing) with
  | none => (.ok (), s)
  | some closed =>
    (closed.mapError .connectionFailed, s.onBus i fun b => { b.enter .closed with closing := none })

/-- A dropped bus stops its dispatcher and leaves its session open. -/
def drop (i : Nat) (s : Network H) : Network H :=
  s.onBus i fun b => { b with shutdown := true, isDropped := true }

end Network
end CargoEvents
