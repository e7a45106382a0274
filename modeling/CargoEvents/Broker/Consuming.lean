import CargoEvents.Broker.Routing

/-! # Consuming

A stream hands out a queue's copies, head first, as deliveries of its session. Each waits
under its tag until it is resolved: accepted for good, or given back to the head of its
queue, marked as redelivered. A session that closes gives back all it holds.
-/
namespace CargoEvents.Broker

structure Stream where
  session : Nat
  queue : String
  epoch : Nat
  /-- The broker's signals when the stream last found nothing. -/
  waitedAt : Option Nat := none
  deriving DecidableEq, Repr

inductive Polled
  | delivery (d : Delivery)
  | fault (e : BrokerError)
  | pending
  | ended
  deriving DecidableEq, Repr

def consume (b : Broker) (s : Nat) (queue : String) : Except BrokerError Stream :=
  if ¬b.isOpen s then .error .sessionClosed
  else if b.queues.contains queue then .ok { session := s, queue, epoch := b.epoch }
  else .error (.consumeFailed (noQueue queue))

/-- Moves the head of a queue, `copy`, to what the session holds. -/
def handOut (b : Broker) (s : Nat) (queue : String) (tag : Nat) (copy : Copy) : Broker :=
  { b with
    queues := b.queues.modify queue fun q => { q with ready := q.ready.tail }
    sessions := b.sessions.modify s fun x =>
      { x with lastTag := tag, unacked := x.unacked ++ [{ tag, queue, copy }] } }

def look (b : Broker) (st : Stream) : Polled × Broker :=
  match b.sessions[st.session]? with
  | none => (.ended, b)
  | some session =>
    if b.epoch ≠ st.epoch ∨ ¬session.isOpen then (.ended, b)
    else match b.deliveryFaults, b.ready st.queue with
      | reason :: later, _ =>
        (.fault (.consumeFailed reason), { b with deliveryFaults := later })
      | [], copy :: _ =>
        if session.isFull then (.pending, b)
        else
          let tag := session.lastTag + 1
          (.delivery (copy.delivery tag), b.handOut st.session st.queue tag copy)
      | [], [] => (.pending, b)

/-- A stream that found nothing looks again only after a signal. -/
def poll (b : Broker) (st : Stream) : Polled × Stream × Broker :=
  if st.waitedAt = some b.signals then (.pending, st, b)
  else match b.look st with
    | (.pending, b) => (.pending, { st with waitedAt := some b.signals }, b)
    | (polled, b) => (polled, { st with waitedAt := none }, b)

/-- Puts a held copy back to the head of its queue, if the queue is still there. -/
def giveBack (b : Broker) (held : Held) : Broker :=
  { b with queues := b.queues.modify held.queue fun q =>
      { q with ready := { held.copy with redelivered := true } :: q.ready } }

inductive Resolution
  | ack
  | nack (requeue : Bool)
  deriving DecidableEq, Repr

def unknownTag : String := "PRECONDITION_FAILED - unknown delivery tag"

def resolve (b : Broker) (s tag : Nat) (how : Resolution) : Except BrokerError Broker :=
  match b.sessions[s]? with
  | none => .error .sessionClosed
  | some session =>
    if ¬session.isOpen then .error .sessionClosed
    else match session.unacked.find? (·.tag == tag) with
      | none => .error (.acknowledgementFailed tag unknownTag)
      | some held =>
        let b := b.onSession s fun x => { x with unacked := x.unacked.filter (·.tag != tag) }
        .ok (signal (if how = .nack true then b.giveBack held else b))

/-- Closes a session; what it held stands at the heads of the queues, in the order of tags. -/
def closeSession (b : Broker) (s : Nat) : Broker :=
  match b.sessions[s]? with
  | none => b
  | some session =>
    if session.isOpen then
      let closed := b.onSession s fun x => { x with isOpen := false, unacked := [] }
      signal (session.unacked.foldr (fun held b => b.giveBack held) closed)
    else b

end CargoEvents.Broker
