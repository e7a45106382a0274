/-! # What a bus counts

One observation per resolved delivery, handler run, published or rejected message, and
error of the delivery stream. Observations of one metric with the same labels form a
series.
-/
namespace CargoEvents

inductive Outcome
  | ack | nack | unroutable
  deriving DecidableEq, Repr

def Outcome.label : Outcome → String
  | .ack => "ack"
  | .nack => "nack"
  | .unroutable => "unroutable"

inductive Observation
  | delivery (kind : String) (outcome : Outcome)
  | handlerRun (kind : String)
  | published (kind : String)
  | publishError (kind : String)
  | transportError
  deriving DecidableEq, Repr

inductive Metric
  | deliveries | handlerDuration | published | publishErrors | transportErrors
  deriving DecidableEq, Repr

namespace Metric

def name : Metric → String
  | deliveries => "event_bus_deliveries_total"
  | handlerDuration => "event_bus_handler_duration_seconds"
  | published => "event_bus_messages_published_total"
  | publishErrors => "event_bus_publish_errors_total"
  | transportErrors => "event_bus_transport_errors_total"

def help : Metric → String
  | deliveries => "Deliveries resolved by the dispatcher, by outcome (ack, nack, unroutable)"
  | handlerDuration => "Time spent inside event handlers"
  | published => "Total number of messages published to the exchange"
  | publishErrors => "Total number of publish errors"
  | transportErrors => "Errors reported by the delivery stream"

def isHistogram : Metric → Bool
  | handlerDuration => true
  | _ => false

def all : List Metric := [deliveries, handlerDuration, published, publishErrors, transportErrors]

end Metric

namespace Observation

def metric : Observation → Metric
  | delivery .. => .deliveries
  | handlerRun _ => .handlerDuration
  | published _ => .published
  | publishError _ => .publishErrors
  | transportError => .transportErrors

def labels : Observation → List (String × String)
  | delivery kind outcome => [("kind", kind), ("outcome", outcome.label)]
  | handlerRun kind | published kind | publishError kind => [("kind", kind)]
  | transportError => []

def series (o : Observation) : String :=
  o.metric.name ++ "\x7b" ++ ",".intercalate (o.labels.map fun (k, v) => k ++ "=" ++ v) ++ "\x7d"

def counts (os : List Observation) : List (Observation × Nat) :=
  os.eraseDups.map fun o => (o, os.count o)

end Observation
end CargoEvents
