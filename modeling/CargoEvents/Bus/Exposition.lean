import CargoEvents.Bus.Metrics

/-! # Exposition of metrics

Counts as lines of text for a collector that asks for them, and the server it asks. A
process has one recorder; a server that finds one installed starts without its own.
-/
namespace CargoEvents

/-- Upper bounds of the buckets that handler runs are sorted into, in seconds. -/
def durationBounds : List String :=
  ["0.001", "0.005", "0.01", "0.025", "0.05", "0.1", "0.25", "0.5", "1", "2.5", "5", "10", "+Inf"]

def escapeLabel (value : String) : String :=
  String.join (value.toList.map fun c =>
    if c = '\\' then "\\\\" else if c = '"' then "\\\"" else if c = '\n' then "\\n" else c.toString)

/-- A series with its labels; one without labels has no braces. -/
def sampleName (name : String) (labels : List (String × String)) : String :=
  if labels.isEmpty then name
  else name ++ "\x7b" ++
    ",".intercalate (labels.map fun (k, v) => k ++ "=\"" ++ escapeLabel v ++ "\"") ++ "\x7d"

def sample (name : String) (labels : List (String × String)) (count : Nat) : String :=
  s!"{sampleName name labels} {count}"

/-- The lines that show `count` observations: of a histogram, the last bucket and the count. -/
def sampleLines : Observation × Nat → List String
  | (o, count) =>
    let name := o.metric.name
    if o.metric.isHistogram then
      [sample (name ++ "_bucket") (o.labels ++ [("le", "+Inf")]) count,
        sample (name ++ "_count") o.labels count]
    else [sample name o.labels count]

def Metric.type (m : Metric) : String := if m.isHistogram then "histogram" else "counter"

def Metric.descriptions (m : Metric) : List String :=
  [s!"# HELP {m.name} {m.help}", s!"# TYPE {m.name} {m.type}"]

structure Exposition where
  lines : List String
  described : List String
  /-- Each histogram's bucket series, with the bounds of its buckets. -/
  buckets : List (String × List String)
  deriving DecidableEq, Repr

def sorted (lines : List String) : List String := lines.mergeSort fun a b => a ≤ b

def Exposition.ofObserved (os : List Observation) : Exposition :=
  let counts := Observation.counts os
  let metrics := Metric.all.filter fun m => counts.any (·.1.metric == m)
  { lines := sorted (counts.flatMap sampleLines)
    described := sorted (metrics.flatMap Metric.descriptions)
    buckets := (counts.filter (·.1.metric.isHistogram)).map fun (o, _) =>
      (sampleName (o.metric.name ++ "_bucket") (o.labels ++ [("le", "")]), durationBounds) }

structure ExporterError where
  reason : String
  deriving DecidableEq, Repr

def ExporterError.message (e : ExporterError) : String :=
  s!"Failed to build metrics exporter: {e.reason}"

structure MetricsServer where
  /-- Whether the server's own recorder is the one installed. -/
  records : Bool
  deriving DecidableEq, Repr

namespace MetricsServer

def start (isInstalled addressInUse : Bool) : Except ExporterError MetricsServer :=
  if addressInUse then
    .error ⟨"failed to create HTTP listener: Address already in use (os error 98)"⟩
  else .ok ⟨!isInstalled⟩

def render (server : MetricsServer) (os : List Observation) : Option Exposition :=
  if server.records then some (.ofObserved os) else none

end MetricsServer
end CargoEvents
