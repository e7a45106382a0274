import CargoEvents.Amqp.Method
import CargoEvents.Amqp.Redaction
import CargoEvents.Session

/-! # Sessions over AMQP

A session is a channel on a connection to a peer. Each call is one method, which the peer
answers or refuses; a refusal closes the channel, or the connection for methods that are
about it. What is closed sends nothing any more.
-/
namespace CargoEvents.Amqp

/-- The peer answers the next method named `method` by closing with a code and a text. -/
structure Refusal where
  method : String
  code : Nat
  text : String
  deriving DecidableEq, Repr

def Refusal.reason (r : Refusal) : String := protocolError r.code r.text

def loginRefused : Refusal where
  method := "connection.start-ok"
  code := 403
  text := "ACCESS_REFUSED - Login was refused using authentication mechanism PLAIN. " ++
    "For details see the broker logfile."

structure Peer where
  isReachable : Bool := true
  /-- Those who may log in, if not everybody may. -/
  accounts : Option (List Credentials) := none
  refusals : List Refusal := []
  /-- Newest first. -/
  received : List Method := []
  deriving DecidableEq, Repr

namespace Peer

def takeRefusal (method : String) : List Refusal → Option (Refusal × List Refusal)
  | [] => none
  | r :: later =>
    if r.method = method then some (r, later)
    else (takeRefusal method later).map fun (found, rest) => (found, r :: rest)

/-- Only who logs in has to have an account. -/
def admits (p : Peer) : Method → Bool
  | .startOk credentials _ => p.accounts.all (·.contains credentials)
  | _ => true

def receive (p : Peer) (m : Method) : Option Refusal × Peer :=
  let p := { p with received := m :: p.received }
  if !p.admits m then (some loginRefused, p)
  else match takeRefusal m.name p.refusals with
    | none => (none, p)
    | some (r, refusals) => (some r, { p with refusals })

def tagFor (tag : String) : String := if tag = "" then "generated" else tag

/-- A method that has to be answered. -/
def ask (m : Method) : Call String Peer Unit := fun p =>
  match p.receive m with
  | (none, p) => (.ok (), p)
  | (some r, p) => (.error r.reason, p)

end Peer

/-- A connection or a channel: in use, or closed for a reason. -/
inductive Line
  | up
  | down (reason : String)
  deriving DecidableEq, Repr

def Line.isUp : Line → Bool
  | up => true
  | down _ => false

def Line.cut (reason : String) : Line → Line
  | up => down reason
  | down reason => down reason

structure Incoming where
  content : Content
  tag : Nat
  redelivered : Bool := false
  deriving DecidableEq, Repr

/-- What a consumer makes of it. An empty type tag stays one. -/
def Incoming.delivery (x : Incoming) : Broker.Delivery where
  routingKey := x.content.routingKey
  typeTag := x.content.properties.kind
  body := x.content.body
  tag := x.tag
  redelivered := x.redelivered

/-- A consumer, with what it has not yielded yet. -/
structure Consumer where
  tag : String
  waiting : List (Except BrokerError Broker.Delivery) := []
  isOver : Bool := false

namespace Consumer

def push (c : Consumer) (item : Except BrokerError Broker.Delivery) : Consumer :=
  if c.isOver then c else { c with waiting := c.waiting ++ [item] }

def stop (c : Consumer) : Consumer := { c with isOver := true }

end Consumer

structure Session where
  peer : Peer
  /-- The address without its password. -/
  uri : String
  connection : Line := .up
  channel : Line := .up
  consumers : List Consumer := []

/-- Why calls on a closed channel fail. -/
def invalidState : String := "invalid channel state"

def unreachable : String := "IO error: Connection refused (os error 111)"

namespace Session

/-- A way to reach a peer at an address, over a connection that may have a name. -/
abbrev Dial := String → Option String → Call String Peer Unit

/-- Reads the address, logs in and opens the virtual host. -/
def dial : Dial := fun uri connectionName => do
  let address ← match Address.read uri with
    | .ok address => pure address
    | .error reason => throw s!"IO error: {reason}"
  if ¬(← get).isReachable then throw unreachable
  Peer.ask (.startOk address.credentials connectionName)
  Peer.ask (.openConnection address.virtualHost)

def connectBy (dial : Dial) (uri : String) (connectionName : Option String) :
    Call BrokerError Peer Session := do
  let shown := redact uri
  ExceptT.adapt (fun reason => .connectionFailed s!"Failed to connect to {shown}: {reason}")
    (dial uri connectionName)
  ExceptT.adapt (fun reason => .connectionFailed s!"Failed to open channel: {reason}")
    (Peer.ask .openChannel)
  return { peer := ← get, uri := shown }

def connect : String → Option String → Call BrokerError Peer Session := connectBy dial

def isConnected (s : Session) : Bool := s.connection.isUp && s.channel.isUp

/-- The peer closes the channel: each consumer yields the reason and ends. -/
def channelClosed (reason : String) (s : Session) : Session :=
  if s.channel.isUp then
    { s with
      channel := .down reason
      consumers := s.consumers.map fun c => (c.push (.error (.consumeFailed reason))).stop }
  else s

def connectionClosed (reason : String) (s : Session) : Session :=
  { s.channelClosed reason with connection := s.connection.cut reason }

/-- Sends a method. A refusal closes the channel. -/
def send (m : Method) (s : Session) : Option Refusal × Session :=
  let (refused, peer) := s.peer.receive m
  let s := { s with peer }
  (refused, match refused with
    | none => s
    | some r => s.channelClosed r.reason)

def ask (m : Method) : Call String Session Unit := fun s =>
  if s.channel.isUp then
    match s.send m with
    | (none, s) => (.ok (), s)
    | (some r, s) => (.error r.reason, s)
  else (.error invalidState, s)

/-- A method that is not answered; whoever sends it does not hear of a refusal. -/
def tell (m : Method) : Call String Session Unit := fun s =>
  if s.channel.isUp then (.ok (), (s.send m).2) else (.error invalidState, s)

def calls : SessionCalls Session where
  declareExchange x :=
    ExceptT.adapt (.declarationFailed s!"exchange '{x.name}'") (ask (.declareExchange x))
  declareQueue q := ExceptT.adapt (.declarationFailed s!"queue '{q.name}'") (ask (.declareQueue q))
  setQos qos :=
    ExceptT.adapt (.declarationFailed "qos") (ask (.qos qos.prefetchCount.toNat qos.isGlobal))
  bindQueue queue exchange key :=
    ExceptT.adapt (.declarationFailed s!"binding '{queue}' -> '{exchange}' ({key})")
      (ask (.bindQueue queue exchange key))
  publish exchange m := ExceptT.adapt .publishFailed (tell (.publish exchange (.ofMessage m)))

def consume (queue tag : String) : Call BrokerError Session Unit := do
  ExceptT.adapt .consumeFailed (ask (.consume queue tag))
  modify fun s => { s with consumers := s.consumers ++ [{ tag := Peer.tagFor tag }] }

/-- What the consumer that registered last yields next, if it yields anything now. -/
def next (s : Session) : Broker.Polled × Session :=
  let n := s.consumers.length - 1
  match s.consumers[n]? with
  | none => (.ended, s)
  | some c => match c.waiting with
    | [] => (if c.isOver then .ended else .pending, s)
    | item :: waiting =>
      (match item with
        | .ok d => .delivery d
        | .error e => .fault e, { s with consumers := s.consumers.set n { c with waiting } })

def resolution (tag : Nat) : Broker.Resolution → Method
  | .ack => .ack tag false
  | .nack requeue => .nack tag false requeue

/-- A delivery of a closed channel cannot be resolved, for the reason it was closed. -/
def resolve (tag : Nat) (how : Broker.Resolution) : Call BrokerError Session Unit := fun s =>
  match s.channel with
  | .down reason => (.error (.acknowledgementFailed tag reason), s)
  | .up => ExceptT.adapt (.acknowledgementFailed tag) (tell (resolution tag how)) s

def replySuccess : Nat := 200
def farewell : String := "Bye"

/-- Closes the channel if it is up, whatever comes of it. -/
def closeChannel (s : Session) : Session :=
  if s.channel.isUp then
    let (_, s) := s.send (.closeChannel replySuccess farewell)
    { s with channel := s.channel.cut invalidState, consumers := s.consumers.map Consumer.stop }
  else s

def closeConnection : Call BrokerError Session Unit := fun s =>
  if s.connection.isUp then
    let (refused, peer) := s.peer.receive (.closeConnection replySuccess farewell)
    let reason := (refused.map (·.reason)).getD invalidState
    let s := { s with peer, connection := .down reason }
    match refused with
    | none => (.ok (), s)
    | some r => (.error (.connectionFailed r.reason), s)
  else (.ok (), s)

/-- Closes the channel and then the connection. -/
def close : Call BrokerError Session Unit := fun s => closeConnection s.closeChannel

/-! ## What the peer does by itself -/

def deliver (consumer : String) (d : Broker.Delivery) (s : Session) : Session :=
  { s with consumers := s.consumers.map fun c => if c.tag = consumer then c.push (.ok d) else c }

def receive (consumer : String) (x : Incoming) (s : Session) : Session :=
  s.deliver consumer x.delivery

def cancel (consumer : String) (s : Session) : Session :=
  { s with consumers := s.consumers.map fun c => if c.tag = consumer then c.stop else c }

end Session
end CargoEvents.Amqp
