import CargoEvents.Event.Codec
import CargoEvents.Text.Quoted

/-! # What goes wrong on the bus

Errors of the broker, of handlers and of the bus itself, each with its text, the error
behind it, and the form log records show that one in.
-/
namespace CargoEvents
open Text

inductive BrokerError
  | connectionFailed (reason : String)
  | declarationFailed (entity reason : String)
  | publishFailed (reason : String)
  | consumeFailed (reason : String)
  | acknowledgementFailed (tag : Nat) (reason : String)
  | sessionClosed
  deriving DecidableEq, Repr

namespace BrokerError

def message : BrokerError → String
  | connectionFailed reason => s!"Connection failed: {reason}"
  | declarationFailed entity reason => s!"Declaration of {entity} failed: {reason}"
  | publishFailed reason => s!"Publish failed: {reason}"
  | consumeFailed reason => s!"Consume failed: {reason}"
  | acknowledgementFailed tag reason => s!"Acknowledgement of delivery {tag} failed: {reason}"
  | sessionClosed => "Session closed"

def shown : BrokerError → String
  | connectionFailed reason => shownTuple "ConnectionFailed" (quoted reason)
  | declarationFailed entity reason =>
    shownRecord "DeclarationFailed" [("entity", quoted entity), ("reason", quoted reason)]
  | publishFailed reason => shownTuple "PublishFailed" (quoted reason)
  | consumeFailed reason => shownTuple "ConsumeFailed" (quoted reason)
  | acknowledgementFailed tag reason =>
    shownRecord "AcknowledgementFailed" [("delivery_tag", toString tag), ("reason", quoted reason)]
  | sessionClosed => "SessionClosed"

end BrokerError

def CodecError.shown : CodecError → String
  | .encode kind reason => shownRecord "Encode" [("kind", quoted kind), ("reason", quoted reason)]
  | .decode kind reason => shownRecord "Decode" [("kind", quoted kind), ("reason", quoted reason)]

inductive RepositoryError
  | unknownCargo (id : String)
  | storage (reason : String)
  deriving DecidableEq, Repr

def RepositoryError.message : RepositoryError → String
  | unknownCargo id => s!"Unknown cargo: {id}"
  | storage reason => s!"Storage error: {reason}"

inductive HandlerError
  | notFound (what : String)
  | rejected (reason : String)
  | repository (reason : String)
  | other (text : String)
  deriving DecidableEq, Repr

namespace HandlerError

/-- A cargo that is unknown is not found; any other failure stays the repository's. -/
def ofRepository : RepositoryError → HandlerError
  | .unknownCargo id => .notFound id
  | .storage reason => .repository reason

def message : HandlerError → String
  | notFound what => s!"Not found: {what}"
  | rejected reason => s!"Rejected: {reason}"
  | repository reason => s!"Repository error: {reason}"
  | other text => text

def shown : HandlerError → String
  | notFound what => shownTuple "NotFound" (quoted what)
  | rejected reason => shownTuple "Rejected" (quoted reason)
  | repository reason => shownTuple "Repository" (quoted reason)
  | other text => shownTuple "Other" (quoted text)

end HandlerError

inductive BusError
  | connectionFailed (source : BrokerError)
  | topologyFailed (source : BrokerError)
  | encoding (source : CodecError)
  | publishFailed (routingKey : String) (source : BrokerError)
  | subscriptionFailed (routingKey : String) (source : BrokerError)
  | decodeFailed (tag : Nat) (source : CodecError)
  | handlerFailed (routingKey : String) (tag : Nat) (source : HandlerError)
  | acknowledgementFailed (source : BrokerError)
  | transportError (source : BrokerError)
  | alreadyStarted
  | closed
  deriving DecidableEq, Repr

namespace BusError

def message : BusError → String
  | connectionFailed source => s!"Connection failed: {source.message}"
  | topologyFailed source => s!"Topology bootstrap failed: {source.message}"
  | encoding source => source.message
  | publishFailed key source => s!"Publish failed for '{key}': {source.message}"
  | subscriptionFailed key source => s!"Subscription failed for '{key}': {source.message}"
  | decodeFailed tag source => s!"Delivery {tag} could not be decoded: {source.message}"
  | handlerFailed key tag source =>
    s!"Handler for '{key}' failed on delivery {tag}: {source.message}"
  | acknowledgementFailed source => s!"Acknowledgement failed: {source.message}"
  | transportError source => s!"Transport error: {source.message}"
  | alreadyStarted => "Event bus already started"
  | closed => "Event bus closed"

/-- The error behind this one, as its text and the form log records show. An encoding error
stands for itself. -/
def source? : BusError → Option (String × String)
  | connectionFailed e | topologyFailed e | publishFailed _ e | subscriptionFailed _ e
  | acknowledgementFailed e | transportError e => some (e.message, e.shown)
  | decodeFailed _ e => some (e.message, e.shown)
  | handlerFailed _ _ e => some (e.message, e.shown)
  | encoding _ | alreadyStarted | closed => none

end BusError
end CargoEvents
