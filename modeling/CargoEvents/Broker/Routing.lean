import CargoEvents.Broker.Basic

/-! # Declaring and publishing

A declaration is repeated safely as long as its attributes are the same. A message goes to
the tail of every queue bound under its exchange and key. What fails leaves the broker as
it was.
-/
namespace CargoEvents.Broker
open Wire (Bytes)

def inequivalent : String := "PRECONDITION_FAILED - inequivalent arguments"
def noExchange (name : String) : String := s!"NOT_FOUND - no exchange '{name}'"
def noQueue (name : String) : String := s!"NOT_FOUND - no queue '{name}'"

/-- Declares what `entity` names, unless the broker is told to fail. -/
def declaring (b : Broker) (entity : String) (reason? : Option String) (declared : Broker) :
    Except BrokerError Broker :=
  match b.declarationFault, reason? with
  | some reason, _ | none, some reason => .error (.declarationFailed entity reason)
  | none, none => .ok declared

def declareExchange (b : Broker) (s : Nat) (x : ExchangeDeclaration) : Except BrokerError Broker :=
  if b.isOpen s then
    let declared := { b with exchanges := b.exchanges.insert x.name x }
    b.declaring s!"exchange '{x.name}'"
      (if (b.exchanges.get? x.name).all (· == x) then none else some inequivalent) declared
  else .error .sessionClosed

def declareQueue (b : Broker) (s : Nat) (q : QueueDeclaration) : Except BrokerError Broker :=
  if b.isOpen s then
    let declared := if b.queues.contains q.name then b
      else { b with queues := b.queues.insert q.name { declaration := q } }
    b.declaring s!"queue '{q.name}'"
      (if (b.queue? q.name).all (· == q) then none else some inequivalent) declared
  else .error .sessionClosed

/-- A fault for declarations shows before the session's state does. -/
def setQos (b : Broker) (s : Nat) (qos : Qos) : Except BrokerError Broker :=
  match b.declarationFault with
  | some reason => .error (.declarationFailed "qos" reason)
  | none =>
    if b.isOpen s then
      .ok (b.onSession s fun x => { x with prefetch := qos.prefetchCount.toNat })
    else .error .sessionClosed

def bindQueue (b : Broker) (s : Nat) (queue exchange key : String) : Except BrokerError Broker :=
  if b.isOpen s then
    let binding : Binding := { exchange, key, queue }
    let reason? :=
      if ¬b.exchanges.contains exchange then some (noExchange exchange)
      else if ¬b.queues.contains queue then some (noQueue queue)
      else none
    b.declaring s!"binding '{queue}' -> '{exchange}' ({key})" reason?
      { b with bindings := b.bindings.insert binding }
  else .error .sessionClosed

def targets (b : Broker) (exchange key : String) : List String :=
  (b.bindings.filter fun x => x.exchange == exchange && x.key == key).map (·.queue)

/-- Puts a new copy at the tail of every queue bound under `exchange` and `key`. -/
def route (b : Broker) (exchange key : String) (typeTag : Option String) (body : Bytes) : Broker :=
  let copy : Copy := { arrival := b.arrivals, routingKey := key, typeTag, body }
  let targets := b.targets exchange key
  { b with
    arrivals := b.arrivals + 1
    queues := b.queues.mapValues fun name q =>
      if targets.contains name then { q with ready := q.ready ++ [copy] } else q }

/-- An empty type tag travels as none. -/
def publish (b : Broker) (s : Nat) (exchange : String) (m : Message) : Except BrokerError Broker :=
  if ¬b.isOpen s then .error .sessionClosed
  else match b.publishFault with
    | some reason => .error (.publishFailed reason)
    | none =>
      if b.exchanges.contains exchange then
        let tag := if m.typeTag = "" then none else some m.typeTag
        let b := b.route exchange m.routingKey tag m.body
        .ok (signal { b with published := b.published ++ [m] })
      else .error (.publishFailed (noExchange exchange))

/-- A message from elsewhere, and how many queues it went to. -/
def inject (b : Broker) (exchange key : String) (typeTag : Option String) (body : Bytes) :
    Nat × Broker :=
  ((b.targets exchange key).length, signal (b.route exchange key typeTag body))

end CargoEvents.Broker
