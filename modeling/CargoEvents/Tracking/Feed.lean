import CargoEvents.Text.Hex
import CargoEvents.Tracking.Service

/-! # Feeds

Deliveries as text, one a line: the kind of an event, white space, and the body in
hexadecimal. Blank lines do not count; the others are numbered from 1, which are the tags.
-/
namespace CargoEvents.Tracking.Feed
open Calendar (Instant)

def readLine (tag : Nat) (line : String) : Option Broker.Delivery := do
  let text := (Text.trim line).toList
  let kind := text.takeWhile (!Text.isBlank ·)
  let body ← Text.ofHex? (Text.trimStart (text.drop kind.length))
  return { routingKey := String.ofList kind, typeTag := none, body, tag, redelivered := false }

/-- The deliveries, or the first line that is none. -/
def read (lines : List String) : Except String (List Broker.Delivery) :=
  ((lines.filter (!Text.isBlankText ·)).zipIdx 1).mapM fun (line, tag) =>
    match readLine tag line with
    | some d => .ok d
    | none => .error (Text.trim line)

def consumer (settings : Settings) : String :=
  match TrackingConfig.ofSettings settings with
  | .ok config => Amqp.Peer.tagFor config.bus.effectiveTag
  | .error _ => ""

/-- A run on a peer that accepts everything. A signal follows the last delivery. -/
def run (settings : Settings) (now : Instant) (ds : List Broker.Delivery) :
    Except Failure Unit × Service :=
  Service.run settings false now (ds.map (consumer settings, ·)) .signal (.waiting {})

end CargoEvents.Tracking.Feed
