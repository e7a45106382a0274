import CargoEvents.Bus.Dispatch
import CargoEvents.Bus.State
import CargoEvents.Config.Bus
import CargoEvents.Log
import CargoEvents.Session

/-! # Networks of buses

Any number of buses, each with a session of its own on one broker, and the history of what
they did. Handlers are of a type `H` of which nothing is assumed.
-/
namespace CargoEvents

/-- Where a bus reports errors that no caller waits for. -/
inductive ErrorSink
  | receiver
  | goneReceiver
  | log
  deriving DecidableEq, Repr

def ErrorSink.logged (e : BusError) : ErrorSink → List LogRecord
  | receiver => []
  | goneReceiver => [.unreceived e]
  | log => [.busError e]

/-- A call on a session, as it is recorded. -/
inductive SessionCall
  | declareExchange (name : String)
  | declareQueue (name : String)
  | setQos (count : Nat)
  | bindQueue (queue exchange key : String)
  | publish (exchange key : String)
  | consume (queue tag : String)
  | close
  | ack (tag : Nat)
  | nack (tag : Nat) (requeue : Bool)
  deriving DecidableEq, Repr

namespace SessionCall

def name : SessionCall → String
  | declareExchange _ => "declare_exchange"
  | declareQueue _ => "declare_queue"
  | setQos _ => "set_qos"
  | bindQueue .. => "bind_queue"
  | publish .. => "publish"
  | consume .. => "consume"
  | close => "close"
  | ack _ => "ack"
  | nack .. => "nack"

def arguments : SessionCall → List String
  | declareExchange name | declareQueue name => [name]
  | setQos count => [toString count]
  | bindQueue queue exchange key => [queue, exchange, key]
  | publish exchange key => [exchange, key]
  | consume queue tag => [queue, tag]
  | close => []
  | ack tag => [toString tag]
  | nack tag requeue => [toString tag, toString requeue]

def text (c : SessionCall) : String := " ".intercalate (c.name :: c.arguments)

def ofResolution (tag : Nat) : Broker.Resolution → SessionCall
  | .ack => ack tag
  | .nack requeue => nack tag requeue

end SessionCall

structure Dispatcher (H : Type) where
  stream : Broker.Stream
  position : Position H := .pulling

structure Bus (H : Type) where
  config : BusConfig
  /-- The number of its session on the broker. -/
  session : Nat
  sink : ErrorSink := .receiver
  registry : Registry H := {}
  state : BusState := .idle
  /-- How often the state was set. -/
  changes : Nat := 0
  /-- Whether dispatchers are told to stop. -/
  shutdown : Bool := false
  dispatchers : List (Dispatcher H) := []
  /-- How the session closed, while the bus drains. -/
  closing : Option (Except BrokerError Unit) := none
  isDropped : Bool := false
  /-- Errors that the next calls of a name meet instead of the broker. -/
  faults : List (String × BrokerError) := []

/-- Something that happened to the bus with number `bus`. -/
inductive Entry (H : Type)
  | called (bus : Nat) (call : SessionCall) (refusal : Option BrokerError)
  | pulled (bus dispatcher : Nat) (d : Broker.Delivery)
  | entered (bus dispatcher : Nat) (d : Broker.Delivery) (r : Registration H) (e : Event)
  | left (bus dispatcher : Nat) (d : Broker.Delivery) (result : Except HandlerError Unit)
  | panicked (bus dispatcher : Nat) (d : Broker.Delivery)
  | observed (bus : Nat) (o : Observation)
  | reported (bus : Nat) (e : BusError)
  | logged (r : LogRecord)

structure Network (H : Type) where
  broker : Broker := {}
  buses : List (Bus H) := []
  /-- Newest first. -/
  history : List (Entry H) := []

namespace Network
variable {H α : Type}

def note (s : Network H) (e : Entry H) : Network H := { s with history := e :: s.history }

def observe (s : Network H) (i : Nat) (os : List Observation) : Network H :=
  os.foldl (fun s o => s.note (.observed i o)) s

def onBus (s : Network H) (i : Nat) (f : Bus H → Bus H) : Network H :=
  { s with buses := s.buses.modify i f }

def report (s : Network H) (i : Nat) (es : List BusError) : Network H :=
  es.foldl (fun s e =>
    let logged := (s.buses[i]?.map (·.sink.logged e)).getD []
    logged.foldl (fun s r => s.note (.logged r)) (s.note (.reported i e))) s

/-- What happened after the first `n` entries, in the order of time. -/
def since (s : Network H) (n : Nat) : List (Entry H) :=
  (s.history.take (s.history.length - n)).reverse

def observed (s : Network H) : List Observation :=
  (s.since 0).filterMap fun
    | .observed _ o => some o
    | _ => none

/-! ## Calls of a bus on its session -/

def takeFault (name : String) : List (String × BrokerError) →
    Option (BrokerError × List (String × BrokerError))
  | [] => none
  | f :: later =>
    if f.1 = name then some (f.2, later)
    else (takeFault name later).map fun (e, fs) => (e, f :: fs)

/-- A recorded call on the session of bus `i`: it meets the fault set for it, if there is
one, and else the broker. -/
def onSession (i : Nat) (c : SessionCall) (op : Nat → Broker → Except BrokerError (α × Broker)) :
    Call BrokerError (Network H) α := fun s =>
  match s.buses[i]? with
  | none => (.error .sessionClosed, s)
  | some bus => match takeFault c.name bus.faults with
    | some (e, faults) =>
      (.error e, (s.onBus i fun b => { b with faults }).note (.called i c (some e)))
    | none => match op bus.session s.broker with
      | .error e => (.error e, s.note (.called i c (some e)))
      | .ok (a, broker) => (.ok a, note { s with broker } (.called i c none))

/-- A call that returns nothing. -/
def onSession' (i : Nat) (c : SessionCall) (op : Nat → Broker → Except BrokerError Broker) :
    Call BrokerError (Network H) Unit :=
  onSession i c fun session b => (op session b).map fun b' => ((), b')

def calls (i : Nat) : SessionCalls (Network H) where
  declareExchange x := onSession' i (.declareExchange x.name) fun s b => b.declareExchange s x
  declareQueue q := onSession' i (.declareQueue q.name) fun s b => b.declareQueue s q
  setQos qos := onSession' i (.setQos qos.prefetchCount.toNat) fun s b => b.setQos s qos
  bindQueue queue exchange key :=
    onSession' i (.bindQueue queue exchange key) fun s b => b.bindQueue s queue exchange key
  publish exchange m :=
    onSession' i (.publish exchange m.routingKey) fun s b => b.publish s exchange m

def consume (i : Nat) (queue tag : String) : Call BrokerError (Network H) Broker.Stream :=
  onSession i (.consume queue tag) fun s b => (b.consume s queue).map fun stream => (stream, b)

def resolve (i tag : Nat) (how : Broker.Resolution) : Call BrokerError (Network H) Unit :=
  onSession' i (.ofResolution tag how) fun s b => b.resolve s tag how

def closeSession (i : Nat) : Call BrokerError (Network H) Unit :=
  onSession' i .close fun s b => .ok (b.closeSession s)

end Network
end CargoEvents
