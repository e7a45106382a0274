import CargoEvents.Amqp.Address
import CargoEvents.Broker.Message
import CargoEvents.Json.Value
import CargoEvents.Text.Hex
import CargoEvents.Topology

/-! # AMQP methods

What a session sends to its peer, and the errors a peer closes with. No method is sent
with arguments, none asks to do without its answer, and publishing asks for no return.
-/
namespace CargoEvents.Amqp

structure Properties where
  contentType : Option String := none
  deliveryMode : Option Nat := none
  priority : Option Nat := none
  kind : Option String := none
  deriving DecidableEq, Repr

namespace Properties

def ofMessage (m : Message) : Properties where
  contentType := some m.contentType
  deliveryMode := some m.deliveryMode.amqp
  priority := some m.priority
  kind := some m.typeTag

/-- The marks of the properties that are set. -/
def flags (p : Properties) : Nat :=
  mark p.contentType 0x8000 + mark p.deliveryMode 0x1000 + mark p.priority 0x0800 +
    mark p.kind 0x0020
where
  mark {α : Type} (property : Option α) (flag : Nat) : Nat := if property.isSome then flag else 0

end Properties

/-- What travels of a message, whoever sends it. -/
structure Content where
  routingKey : String
  properties : Properties := {}
  body : Wire.Bytes
  deriving DecidableEq, Repr

def Content.ofMessage (m : Message) : Content :=
  { routingKey := m.routingKey, properties := .ofMessage m, body := m.body }

inductive Method
  | startOk (credentials : Credentials) (connectionName : Option String)
  | openConnection (virtualHost : String)
  | openChannel
  | declareExchange (x : ExchangeDeclaration)
  | declareQueue (q : QueueDeclaration)
  | bindQueue (queue exchange key : String)
  | qos (prefetch : Nat) (isGlobal : Bool)
  | consume (queue tag : String)
  | publish (exchange : String) (c : Content)
  | ack (tag : Nat) (multiple : Bool)
  | nack (tag : Nat) (multiple requeue : Bool)
  | closeChannel (code : Nat) (text : String)
  | closeConnection (code : Nat) (text : String)
  deriving DecidableEq, Repr

namespace Method

def name : Method → String
  | startOk .. => "connection.start-ok"
  | openConnection _ => "connection.open"
  | openChannel => "channel.open"
  | declareExchange _ => "exchange.declare"
  | declareQueue _ => "queue.declare"
  | bindQueue .. => "queue.bind"
  | qos .. => "basic.qos"
  | consume .. => "basic.consume"
  | publish .. => "basic.publish"
  | ack .. => "basic.ack"
  | nack .. => "basic.nack"
  | closeChannel .. => "channel.close"
  | closeConnection .. => "connection.close"

open Json (Value)

/-- What is recorded of a method: all but the credentials. -/
def fields : Method → List (String × Value)
  | startOk _ name => [("connection_name", .ofOption .str name), ("mechanism", .str "PLAIN")]
  | openConnection virtualHost => [("vhost", .str virtualHost)]
  | openChannel => []
  | declareExchange x => [("exchange", .str x.name), ("type", .str x.kind.name),
      ("passive", .bool false), ("durable", .bool x.durable), ("auto_delete", .bool x.autoDelete),
      ("internal", .bool false), ("nowait", .bool false), ("arguments", .arr [])]
  | declareQueue q => [("queue", .str q.name), ("passive", .bool false),
      ("durable", .bool q.durable), ("exclusive", .bool q.exclusive),
      ("auto_delete", .bool q.autoDelete), ("nowait", .bool false), ("arguments", .arr [])]
  | bindQueue queue exchange key => [("queue", .str queue), ("exchange", .str exchange),
      ("routing_key", .str key), ("nowait", .bool false), ("arguments", .arr [])]
  | qos prefetch isGlobal => [("prefetch_size", .int 0), ("prefetch_count", .int prefetch),
      ("global", .bool isGlobal)]
  | consume queue tag => [("queue", .str queue), ("consumer_tag", .str tag),
      ("no_local", .bool false), ("no_ack", .bool false), ("exclusive", .bool false),
      ("nowait", .bool false), ("arguments", .arr [])]
  | publish exchange c => [("exchange", .str exchange), ("routing_key", .str c.routingKey),
      ("mandatory", .bool false), ("immediate", .bool false), ("flags", .int c.properties.flags),
      ("content_type", .ofOption .str c.properties.contentType),
      ("delivery_mode", .ofOption number c.properties.deliveryMode),
      ("priority", .ofOption number c.properties.priority),
      ("type", .ofOption .str c.properties.kind), ("body", .str (Text.hex c.body))]
  | ack tag multiple => [("delivery_tag", .int tag), ("multiple", .bool multiple)]
  | nack tag multiple requeue =>
    [("delivery_tag", .int tag), ("multiple", .bool multiple), ("requeue", .bool requeue)]
  | closeChannel code text | closeConnection code text => [("code", .int code), ("text", .str text)]
where
  number (n : Nat) : Value := .int n

def toJson (m : Method) : Value := .obj (("method", .str m.name) :: m.fields)

def isOfConnection : Method → Bool
  | startOk .. | openConnection _ | openChannel | closeConnection .. => true
  | _ => false

end Method

/-- The errors that leave the connection usable, by code. -/
def softErrors : List (Nat × String) :=
  [(311, "CONTENT-TOO-LARGE"), (313, "NO-CONSUMERS"), (403, "ACCESS-REFUSED"), (404, "NOT-FOUND"),
    (405, "RESOURCE-LOCKED"), (406, "PRECONDITION-FAILED")]

/-- The errors that do not. -/
def hardErrors : List (Nat × String) :=
  [(320, "CONNECTION-FORCED"), (402, "INVALID-PATH"), (501, "FRAME-ERROR"), (502, "SYNTAX-ERROR"),
    (503, "COMMAND-INVALID"), (504, "CHANNEL-ERROR"), (505, "UNEXPECTED-FRAME"),
    (506, "RESOURCE-ERROR"), (530, "NOT-ALLOWED"), (540, "NOT-IMPLEMENTED"),
    (541, "INTERNAL-ERROR")]

def protocolError (code : Nat) (text : String) : String :=
  match softErrors.lookup code, hardErrors.lookup code with
  | some name, _ => s!"protocol error: AMQP soft error: {name}: {text}"
  | none, some name => s!"protocol error: AMQP hard error: {name}: {text}"
  | none, none => s!"protocol error: {code}: {text}"

end CargoEvents.Amqp
