import CargoEvents.Broker.Message
import CargoEvents.Error
import CargoEvents.Table
import CargoEvents.Topology

/-! # State of the broker

Direct exchanges, queues shared by any number of sessions, and for each session the
deliveries it has not resolved. Every message that arrives has a number; a queue has one
copy of it at most, so number and queue name a copy for good.
-/
namespace CargoEvents
namespace Broker
open Wire (Bytes)

structure Copy where
  arrival : Nat
  routingKey : String
  typeTag : Option String
  body : Bytes
  redelivered : Bool := false
  deriving DecidableEq, Repr

def Copy.delivery (c : Copy) (tag : Nat) : Delivery where
  routingKey := c.routingKey
  typeTag := c.typeTag
  body := c.body
  tag := tag
  redelivered := c.redelivered
  arrival := c.arrival

structure Queue where
  declaration : QueueDeclaration
  /-- Copies waiting, head first. -/
  ready : List Copy := []
  deriving DecidableEq, Repr

/-- A copy handed out and not resolved. -/
structure Held where
  tag : Nat
  queue : String
  copy : Copy
  deriving DecidableEq, Repr

structure Session where
  isOpen : Bool := true
  /-- How many deliveries may be unresolved at once; zero for any number. -/
  prefetch : Nat := 0
  lastTag : Nat := 0
  /-- In the order of their tags. -/
  unacked : List Held := []
  deriving DecidableEq, Repr

def Session.isFull (s : Session) : Bool :=
  0 < s.prefetch && s.prefetch ≤ s.unacked.length

structure Binding where
  exchange : String
  key : String
  queue : String
  deriving DecidableEq, Repr

end Broker

structure Broker where
  exchanges : Table ExchangeDeclaration := ∅
  queues : Table Broker.Queue := ∅
  bindings : List Broker.Binding := []
  sessions : List Broker.Session := []
  /-- How often all consumers were cancelled. -/
  epoch : Nat := 0
  arrivals : Nat := 0
  /-- Messages accepted from sessions. -/
  published : List Message := []
  /-- How many changes waiting consumers were told of. -/
  signals : Nat := 0
  declarationFault : Option String := none
  publishFault : Option String := none
  /-- Faults for the streams that look next. -/
  deliveryFaults : List String := []
  deriving DecidableEq

namespace Broker

def signal (b : Broker) : Broker := { b with signals := b.signals + 1 }

def ready (b : Broker) (queue : String) : List Copy :=
  ((b.queues.get? queue).map (·.ready)).getD []

def depth (b : Broker) (queue : String) : Nat := (b.ready queue).length

def unacked (b : Broker) (queue : String) : List Held :=
  (b.sessions.flatMap (·.unacked)).filter (·.queue == queue)

def queue? (b : Broker) (name : String) : Option QueueDeclaration :=
  (b.queues.get? name).map (·.declaration)

def bindingKeys (b : Broker) (queue : String) : List String :=
  ((b.bindings.filter (·.queue == queue)).mergeSort fun x y =>
    x.exchange < y.exchange || x.exchange == y.exchange && x.key ≤ y.key).map (·.key)

/-- Opens a session; its number is how many there were before. -/
def openSession (b : Broker) : Broker := { b with sessions := b.sessions ++ [{}] }

def isOpen (b : Broker) (s : Nat) : Bool := b.sessions[s]?.any (·.isOpen)

def onSession (b : Broker) (s : Nat) (f : Session → Session) : Broker :=
  { b with sessions := b.sessions.modify s f }

/-! ## What an operator does -/

def failDeclarations (b : Broker) (reason : Option String) : Broker :=
  { b with declarationFault := reason }

def failPublishes (b : Broker) (reason : Option String) : Broker :=
  { b with publishFault := reason }

def failNextDelivery (b : Broker) (reason : String) : Broker :=
  signal { b with deliveryFaults := b.deliveryFaults ++ [reason] }

/-- The queue goes with its ready copies and its bindings. -/
def deleteQueue (b : Broker) (name : String) : Broker :=
  signal { b with
    queues := b.queues.erase name
    bindings := b.bindings.filter (·.queue != name) }

def cancelConsumers (b : Broker) : Broker := signal { b with epoch := b.epoch + 1 }

end Broker
end CargoEvents
