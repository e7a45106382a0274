import CargoEvents.Amqp.Session
import CargoEvents.Bus.Dispatch
import CargoEvents.Bus.Exposition
import CargoEvents.Config.Tracking
import CargoEvents.Tracking.Handlers

/-! # The tracking service

The service reads its settings, connects to a broker, keeps views of the cargos it hears
of and stops when it is told to or when its consumer ends. What fails on the way up, or
when the bus closes, ends it with a report of the errors behind the failure.
-/
namespace CargoEvents.Tracking
open Calendar (Instant)

/-- What the service was at when it failed, and the errors behind that, outermost first. -/
structure Failure where
  context : String
  causes : List String
  deriving DecidableEq, Repr

namespace Failure

def ofBroker (context : String) (e : BrokerError) : Failure := ⟨context, [e.message]⟩

def ofBus (context : String) (e : BusError) : Failure :=
  ⟨context, e.message :: (e.source?.map (·.1)).toList⟩

/-- Puts `head` before the first line of a text and `indent` before the others. -/
def indented (head indent text : String) : String :=
  head ++ ("\n" ++ indent).intercalate (text.splitOn "\n")

/-- A single cause is indented; several are numbered. -/
def report (f : Failure) : String :=
  let causes := match f.causes with
    | [cause] => [indented "    " "    " cause]
    | causes => causes.mapIdx fun n cause => indented s!"    {n}: " "       " cause
  "".intercalate ((s!"Error: {f.context}\n\nCaused by:" :: causes).map (· ++ "\n"))

end Failure

structure Service where
  session : Amqp.Session
  registry : Registry Unit := {}
  repository : Repository := {}
  messages : List String := []
  errors : List BusError := []
  isStopped : Bool := false
  /-- How many cargos there were when the service stopped. -/
  cargos : Option Nat := none

namespace Service

def waiting (peer : Amqp.Peer) : Service :=
  { session := { peer, uri := "", connection := .down "", channel := .down Amqp.invalidState } }

def say (message : String) : Call Failure Service Unit :=
  modify fun s => { s with messages := s.messages ++ [message] }

def report (es : List BusError) (s : Service) : Service := { s with errors := s.errors ++ es }

def onSession {ε α : Type} (call : Call ε Amqp.Session α) : Call ε Service α := fun s =>
  let (result, session) := call s.session
  (result, { s with session })

/-! ## On the way up -/

def connect (config : TrackingConfig) : Call BrokerError Service Unit := fun s =>
  match Amqp.Session.connect config.rabbitUri (some config.bus.service) s.session.peer with
  | (.ok session, _) => (.ok (), { s with session })
  | (.error e, peer) => (.error e, { s with session := { s.session with peer } })

def subscribe (t : Topology) (kind : EventKind) : Call BusError Service Unit := do
  onSession (Amqp.Session.calls.bind t kind.name)
  modify fun s => { s with registry := s.registry.insert kind () }

def consume (c : BusConfig) : Call BusError Service Unit :=
  ExceptT.adapt .transportError
    (onSession (Amqp.Session.consume c.topology.queue.name c.effectiveTag))

def start (settings : Settings) (addressInUse : Bool) : Call Failure Service Unit := do
  let config ← match TrackingConfig.ofSettings settings with
    | .ok config => pure config
    | .error e => throw ⟨"Invalid configuration", [e.message]⟩
  say "Starting tracking service"
  if config.metricsAddress.isSome then
    match MetricsServer.start false addressInUse with
    | .ok _ => pure ()
    | .error e => throw ⟨"Failed to start metrics exporter", [e.message]⟩
  let topology := config.bus.topology
  ExceptT.adapt (.ofBroker "Failed to connect to RabbitMQ") (connect config)
  ExceptT.adapt (.ofBus "Failed to declare topology")
    (onSession (Amqp.Session.calls.declare topology))
  ExceptT.adapt (.ofBus "Failed to subscribe handlers") (trackedKinds.forM (subscribe topology))
  ExceptT.adapt (.ofBus "Failed to start consuming") (consume config.bus)
  say "Waiting for events. To exit press CTRL+C"

/-! ## Deliveries -/

def resolve (d : Broker.Delivery) (how : Broker.Resolution) (s : Service) : Service :=
  let (result, s) := onSession (Amqp.Session.resolve d.tag how) s
  s.report (refusalReport false result)

def handle (now : Instant) (d : Broker.Delivery) (s : Service) : Service :=
  let (position, s) := match (s.registry.accept d).1 with
    | .handling d r e =>
      let (result, repository) := Tracking.handle now e s.repository
      (Position.afterRun d r result, { s with repository })
    | position => (position, s)
  match position with
  | .acknowledging d => s.resolve d .ack
  | .pausing d v => (s.resolve d (.nack true)).report (v.report d.tag)
  | _ => s

def takeIn (now : Instant) : Nat → Service → Service
  | 0, s => s
  | items + 1, s => match s.session.next with
    | (.pending, _) => s
    | (.ended, _) => { s with isStopped := true }
    | (.fault e, session) => takeIn now items ({ s with session }.report [.transportError e])
    | (.delivery d, session) => takeIn now items ({ s with session }.handle now d)

/-- Takes all that the consumer yields now. A refused resolution adds one item to it, and
its end is another. -/
def take (now : Instant) (s : Service) : Service :=
  s.takeIn now ((s.session.consumers.flatMap (·.waiting)).length + 2)

/-! ## On the way down -/

inductive Ending
  | signal
  | cancel (consumer : String)
  | closeConnection
  deriving DecidableEq, Repr

def shutdownCode : Nat := 320
def shutdownText : String := "CONNECTION_FORCED - shutdown"

def ending (e : Ending) (s : Service) : Service :=
  match e with
  | .signal => s
  | .cancel consumer => { s with session := s.session.cancel consumer }
  | .closeConnection =>
    { s with session := s.session.connectionClosed (Amqp.protocolError shutdownCode shutdownText) }

def stop : Call Failure Service Unit := do
  say (if (← get).isStopped then "Consumer stopped, shutting down" else "Shutdown signal received")
  ExceptT.adapt (fun e => .ofBus "Failed to close event bus" (.connectionFailed e))
    (onSession Amqp.Session.close)
  say "Tracking service stopped"
  modify fun s => { s with cargos := some s.repository.cargos.size }

def deliver (now : Instant) (s : Service) (consumer : String) (d : Broker.Delivery) : Service :=
  if s.isStopped then s else take now { s with session := s.session.deliver consumer d }

/-- A whole run: the peer makes the deliveries, each to a consumer, and then the ending comes. -/
def run (settings : Settings) (addressInUse : Bool) (now : Instant)
    (deliveries : List (String × Broker.Delivery)) (e : Ending) : Call Failure Service Unit := do
  start settings addressInUse
  modify fun s => deliveries.foldl (fun s (consumer, d) => s.deliver now consumer d) s
  modify fun s => if s.isStopped then s else take now (ending e s)
  stop

end Service
end CargoEvents.Tracking
