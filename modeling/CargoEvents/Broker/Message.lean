import CargoEvents.Event.Codec
import CargoEvents.Text.Quoted

/-! # Messages

What a publisher hands to the broker and what a consumer gets from it. The kind of a
delivery is its type tag, or its routing key when the tag is missing or empty.
-/
namespace CargoEvents
open Wire (Bytes)

inductive DeliveryMode
  | transient | persistent
  deriving DecidableEq, Repr

def DeliveryMode.amqp : DeliveryMode → Nat
  | .transient => 1
  | .persistent => 2

def contentType : String := "application/x-protobuf"

structure Message where
  routingKey : String
  typeTag : String
  contentType : String := CargoEvents.contentType
  deliveryMode : DeliveryMode := .persistent
  priority : Nat := 0
  body : Bytes
  deriving DecidableEq, Repr

def Message.ofEvent (e : Event) : Message :=
  { routingKey := e.kind.name, typeTag := e.kind.name, body := e.encode }

def eventKind (typeTag : Option String) (routingKey : String) : String :=
  match typeTag with
  | some tag => if tag = "" then routingKey else tag
  | none => routingKey

namespace Broker

structure Delivery where
  routingKey : String
  typeTag : Option String
  body : Bytes
  tag : Nat
  redelivered : Bool
  /-- Which message of its queue this is; no part of what travels. -/
  arrival : Nat := 0
  deriving DecidableEq, Repr

def Delivery.kind (d : Delivery) : String := eventKind d.typeTag d.routingKey

open Text in
/-- The body shows by its length only. -/
def Delivery.shown (d : Delivery) : String :=
  shownRecord "Delivery" [
    ("routing_key", shownTuple "RoutingKey" (quoted d.routingKey)),
    ("type_tag", shownOption quoted d.typeTag), ("body_len", toString d.body.length),
    ("delivery_tag", toString d.tag), ("redelivered", toString d.redelivered ++ ", ..")]

end Broker
end CargoEvents
