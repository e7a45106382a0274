import CargoEvents.Config.Duration
import CargoEvents.Text.Digits
import CargoEvents.Topology

/-! # Configuration of a bus

A bus is configured field by field or from named settings. A setting that is there but
unreadable is refused with the text as it was given; then the rules of `validate` apply.
-/
namespace CargoEvents

/-- Named settings, such as environment variables. -/
abbrev Settings := String → Option String

inductive ConfigError
  | notSet (key : String)
  | unreadable (key value : String)
  | invalid (rule : String)
  deriving DecidableEq, Repr

def ConfigError.message : ConfigError → String
  | notSet key => s!"Environment variable not set: {key}"
  | unreadable key value => s!"Invalid value for {key}: {value}"
  | invalid rule => s!"Configuration validation failed: {rule}"

structure BusConfig where
  service : String
  exchange : String := defaultExchange
  consumerTag : Option String := none
  drainTimeout : Duration := .ofMillis 5000
  requeueDelay : Duration := .zero
  deriving DecidableEq

namespace BusConfig

def brokenRule? (c : BusConfig) : Option String :=
  if c.service = "" then some "service cannot be empty"
  else if c.service.toList.any Text.isBlank then some "service cannot contain whitespace"
  else if c.exchange = "" then some "exchange cannot be empty"
  else if c.drainTimeout.isZero then some "drain_timeout must be > 0"
  else none

def validate (c : BusConfig) : Except ConfigError BusConfig :=
  match c.brokenRule? with
  | some rule => .error (.invalid rule)
  | none => .ok c

/-- A configuration of `service` with the given fields and defaults for the others. -/
def build (service : String) (exchange consumerTag : Option String)
    (drainMillis requeueMillis : Option Nat) : Except ConfigError BusConfig :=
  let c : BusConfig := { service, consumerTag }
  validate { c with
    exchange := exchange.getD c.exchange
    drainTimeout := (drainMillis.map .ofMillis).getD c.drainTimeout
    requeueDelay := (requeueMillis.map .ofMillis).getD c.requeueDelay }

/-- A number of milliseconds, with blanks around it ignored. -/
def readMillis (settings : Settings) (key : String) : Except ConfigError (Option Nat) :=
  match settings key with
  | none => .ok none
  | some text => match Text.readNat UInt64.size (Text.trim text) with
    | some ms => .ok (some ms)
    | none => .error (.unreadable key text)

def ofSettings (settings : Settings) : Except ConfigError BusConfig :=
  match settings "SERVICE_NAME" with
  | none => .error (.notSet "SERVICE_NAME")
  | some service => do
    let drain ← readMillis settings "EVENT_BUS_DRAIN_TIMEOUT_MS"
    let requeue ← readMillis settings "EVENT_BUS_REQUEUE_DELAY_MS"
    build service (settings "EVENT_BUS_EXCHANGE") (settings "EVENT_BUS_CONSUMER_TAG") drain requeue

def effectiveTag (c : BusConfig) : String := c.consumerTag.getD (c.service ++ ".consumer")

def topology (c : BusConfig) : Topology := .forService c.service c.exchange

open Json (Value)

def toJson (c : BusConfig) : Value :=
  .obj [("service", .str c.service), ("exchange", .str c.exchange),
    ("consumer_tag", .ofOption .str c.consumerTag), ("drain_timeout", c.drainTimeout.toJson),
    ("requeue_delay", c.requeueDelay.toJson)]

def ofJson? (v : Value) : Option BusConfig := do
  let field ← v.record? ["service", "exchange", "consumer_tag", "drain_timeout", "requeue_delay"]
  return {
    service := ← (← field "service").str?
    exchange := ← (← field "exchange").str?
    consumerTag := ← (Value.orNull (field "consumer_tag")).option? Value.str?
    drainTimeout := ← Duration.ofJson? (← field "drain_timeout")
    requeueDelay := ← Duration.ofJson? (← field "requeue_delay") }

end BusConfig
end CargoEvents
