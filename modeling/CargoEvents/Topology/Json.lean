import CargoEvents.Json.Value
import CargoEvents.Topology

/-! # Topologies as JSON -/
namespace CargoEvents
open Json (Value)

def ExchangeKind.toJson (k : ExchangeKind) : Value := .str k.name

def ExchangeKind.ofJson? (v : Value) : Option ExchangeKind := v.name?.bind ofName?

def ExchangeDeclaration.toJson (e : ExchangeDeclaration) : Value :=
  .obj [("name", .str e.name), ("kind", e.kind.toJson), ("durable", .bool e.durable),
    ("auto_delete", .bool e.autoDelete)]

def ExchangeDeclaration.ofJson? (v : Value) : Option ExchangeDeclaration := do
  let field ← v.record? ["name", "kind", "durable", "auto_delete"]
  return {
    name := ← (← field "name").str?
    kind := ← ExchangeKind.ofJson? (← field "kind")
    durable := ← (← field "durable").bool?
    autoDelete := ← (← field "auto_delete").bool? }

def QueueDeclaration.toJson (q : QueueDeclaration) : Value :=
  .obj [("name", .str q.name), ("durable", .bool q.durable), ("exclusive", .bool q.exclusive),
    ("auto_delete", .bool q.autoDelete)]

def QueueDeclaration.ofJson? (v : Value) : Option QueueDeclaration := do
  let field ← v.record? ["name", "durable", "exclusive", "auto_delete"]
  return {
    name := ← (← field "name").str?
    durable := ← (← field "durable").bool?
    exclusive := ← (← field "exclusive").bool?
    autoDelete := ← (← field "auto_delete").bool? }

def Qos.toJson (q : Qos) : Value :=
  .obj [("prefetch_count", .int q.prefetchCount.toNat), ("prefetch_size", .int q.prefetchSize.toNat),
    ("global", .bool q.isGlobal)]

def Qos.ofJson? (v : Value) : Option Qos := do
  let field ← v.record? ["prefetch_count", "prefetch_size", "global"]
  return {
    prefetchCount := .ofNat (← (← field "prefetch_count").nat? UInt16.size)
    prefetchSize := .ofNat (← (← field "prefetch_size").nat? UInt32.size)
    isGlobal := ← (← field "global").bool? }

def Topology.toJson (t : Topology) : Value :=
  .obj [("exchange", t.exchange.toJson), ("queue", t.queue.toJson), ("qos", t.qos.toJson)]

def Topology.ofJson? (v : Value) : Option Topology := do
  let field ← v.record? ["exchange", "queue", "qos"]
  return {
    exchange := ← ExchangeDeclaration.ofJson? (← field "exchange")
    queue := ← QueueDeclaration.ofJson? (← field "queue")
    qos := ← Qos.ofJson? (← field "qos") }

end CargoEvents
