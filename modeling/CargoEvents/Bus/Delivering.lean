import CargoEvents.Bus.Lifecycle

/-! # Steps of a dispatcher

A dispatcher pulls a delivery, has it handled, resolves it and only then pulls the next.
Each step below is taken by dispatcher `k` of bus `i` if that is where it stands, and
changes nothing otherwise; which dispatcher takes the next step is not decided here.
-/
namespace CargoEvents.Network
variable {H : Type}

def dispatcher? (s : Network H) (i k : Nat) : Option (Bus H × Dispatcher H) := do
  let bus ← s.buses[i]?
  return (bus, ← bus.dispatchers[k]?)

def onDispatcher (s : Network H) (i k : Nat) (f : Dispatcher H → Dispatcher H) : Network H :=
  s.onBus i fun b => { b with dispatchers := b.dispatchers.modify k f }

def move (s : Network H) (i k : Nat) (p : Position H) : Network H :=
  s.onDispatcher i k fun d => { d with position := p }

/-- The stream has ended: a bus that was consuming is idle again. -/
def streamEnded (s : Network H) (i : Nat) : Network H :=
  s.onBus i fun b => if b.state = .consuming then b.enter .idle else b

def take (s : Network H) (i k : Nat) : Broker.Polled → Network H
  | .pending => s
  | .ended => (s.streamEnded i).move i k .ended
  | .fault e => (s.observe i [.transportError]).report i [.transportError e]
  | .delivery d =>
    let s := s.note (.pulled i k d)
    match s.buses[i]? with
    | none => s
    | some bus =>
      let (position, observed) := bus.registry.accept d
      let s := match position with
        | .handling d r e => s.note (.entered i k d r e)
        | _ => s
      (s.observe i observed).move i k position

/-- Asks the stream, or ends if the bus stops. -/
def pull (i k : Nat) (s : Network H) : Network H :=
  match s.dispatcher? i k with
  | some (bus, { stream, position := .pulling }) =>
    if bus.shutdown then s.move i k .ended
    else
      let (polled, stream, broker) := s.broker.poll stream
      take ({ s with broker }.onDispatcher i k fun d => { d with stream }) i k polled
  | _ => s

def complete (i k : Nat) (result : Except HandlerError Unit) (s : Network H) : Network H :=
  match s.dispatcher? i k with
  | some (_, { position := .handling d r _, .. }) =>
    ((s.note (.left i k d result)).observe i [.handlerRun d.kind]).move i k (.afterRun d r result)
  | _ => s

/-- The handler has panicked, which ends the dispatcher and nothing else. -/
def panic (i k : Nat) (s : Network H) : Network H :=
  match s.dispatcher? i k with
  | some (_, { position := .handling d .., .. }) => (s.note (.panicked i k d)).move i k .ended
  | _ => s

/-- Resolves a delivery and reports a refusal. -/
def settle (i : Nat) (bus : Bus H) (d : Broker.Delivery) (how : Broker.Resolution)
    (observed : List Observation) (s : Network H) : Network H :=
  let (result, s) := resolve i d.tag how s
  (s.observe i observed).report i (refusalReport bus.shutdown result)

def acknowledge (i k : Nat) (s : Network H) : Network H :=
  match s.dispatcher? i k with
  | some (bus, { position := .acknowledging d, .. }) =>
    (s.settle i bus d .ack [.delivery d.kind .ack]).move i k .pulling
  | _ => s

/-- The pause is over: the delivery goes back to its queue. -/
def resume (i k : Nat) (s : Network H) : Network H :=
  match s.dispatcher? i k with
  | some (bus, { position := .pausing d v, .. }) =>
    let s := s.settle i bus d (.nack true) (v.observed d.kind)
    (s.report i (v.report d.tag)).move i k .pulling
  | _ => s

end CargoEvents.Network
