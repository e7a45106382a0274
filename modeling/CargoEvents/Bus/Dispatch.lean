import CargoEvents.Broker.Message
import CargoEvents.Bus.Metrics
import CargoEvents.Registry

/-! # Dispatching a delivery

What a dispatcher does with one delivery: it looks for the handler of the delivery's kind
and decodes the body. Then the handler runs; a run that succeeds has the delivery
acknowledged. In every other case the delivery goes back to its queue after a pause.
-/
namespace CargoEvents

/-- Why a delivery goes back to its queue. -/
inductive Verdict
  | unroutable
  | undecodable (e : CodecError)
  | failed (key : String) (e : HandlerError)
  deriving DecidableEq, Repr

/-- What is counted when the delivery has gone back; an unroutable one was counted before. -/
def Verdict.observed (kind : String) : Verdict → List Observation
  | unroutable => []
  | undecodable _ | failed .. => [.delivery kind .nack]

def Verdict.report (tag : Nat) : Verdict → List BusError
  | unroutable => []
  | undecodable e => [.decodeFailed tag e]
  | failed key e => [.handlerFailed key tag e]

/-- What a dispatcher with handlers `H` is at. -/
inductive Position (H : Type)
  | pulling
  | handling (d : Broker.Delivery) (r : Registration H) (e : Event)
  | acknowledging (d : Broker.Delivery)
  | pausing (d : Broker.Delivery) (v : Verdict)
  | ended
  deriving DecidableEq

namespace Position
variable {H : Type}

def isEnded : Position H → Bool
  | ended => true
  | _ => false

/-- The delivery that is not resolved yet. -/
def delivery? : Position H → Option Broker.Delivery
  | handling d .. | acknowledging d | pausing d _ => some d
  | pulling | ended => none

/-- What follows a run of the handler of `r` on `d`. -/
def afterRun (d : Broker.Delivery) (r : Registration H) : Except HandlerError Unit → Position H
  | .ok _ => acknowledging d
  | .error e => pausing d (.failed r.routingKey e)

end Position

/-- What follows the pull of a delivery, and what is counted at once. -/
def Registry.accept {H : Type} (r : Registry H) (d : Broker.Delivery) : Position H × List Observation :=
  match r.get? d.kind with
  | none => (.pausing d .unroutable, [.delivery d.kind .unroutable])
  | some reg => match reg.decode d.body with
    | .error e => (.pausing d (.undecodable e), [.handlerRun d.kind])
    | .ok e => (.handling d reg e, [])

/-- What is reported of a resolution that the broker refused: nothing once the bus stops,
because its session is closed under it on purpose. -/
def refusalReport (shutdown : Bool) : Except BrokerError Unit → List BusError
  | .error e => if shutdown then [] else [.acknowledgementFailed e]
  | .ok _ => []

end CargoEvents
