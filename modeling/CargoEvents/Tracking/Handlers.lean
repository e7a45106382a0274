import CargoEvents.Tracking.Repository
import CargoEvents.Tracking.Sentences

/-! # Keeping views up to date

A booking stores a new view; the other events change the view there is, and fail for a
cargo that has none.
-/
namespace CargoEvents.Tracking
open Calendar (Instant)

def trackedKinds : List EventKind :=
  [.newCargoBooked, .cargoDestinationChanged, .cargoToRouteAssigned, .cargoWasHandled]

namespace CargoView

def withDestination (v : CargoView) (e : CargoDestinationChanged) : CargoView :=
  { v with destination := e.destination }

def withRoute (v : CargoView) (e : CargoToRouteAssigned) : CargoView :=
  { v with eta := e.eta.bind Instant.ofTimestamp? }

/-- The view after a handling that was heard of at `now`. A code that is no status shows as
unknown, and a missing delivery as one that says nothing. -/
def withHandling (v : CargoView) (e : CargoWasHandled) (now : Instant) : CargoView :=
  let delivery := e.delivery.getD {}
  { v with
    statusText := ((TransportStatus.ofCode? delivery.transportStatus).getD .unknown).name
    nextExpectedActivity := Tracking.nextExpectedActivity delivery.nextExpectedActivity
    eta := delivery.eta.bind Instant.ofTimestamp?
    events := v.events ++ delivery.lastEvent.toList.map fun last =>
      { description := describe last now, expected := delivery.isLastEventExpected } }

end CargoView

/-- Changes the view of a cargo that has one. -/
def Repository.change (id : String) (update : CargoView → CargoView) :
    Call RepositoryError Repository Unit := do
  let view ← find id
  store (update view)

/-- Brings the repository up to date with an event. -/
def handle (now : Instant) (e : Event) : Call HandlerError Repository Unit :=
  ExceptT.adapt .ofRepository <| match e with
    | .newCargoBooked e => Repository.store (.booked e)
    | .cargoDestinationChanged e => Repository.change e.trackingId (·.withDestination e)
    | .cargoToRouteAssigned e => Repository.change e.trackingId (·.withRoute e)
    | .cargoWasHandled e => Repository.change e.trackingId (·.withHandling e now)
    | .handlingEvent _ => pure ()

end CargoEvents.Tracking
