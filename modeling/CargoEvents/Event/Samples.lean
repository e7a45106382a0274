import CargoEvents.Calendar.Instant

/-! # Sample events

Events with plausible content, for trying out handlers and buses.
-/
namespace CargoEvents.Samples

def activity (kind : HandlingType) (location voyage : String) : HandlingActivity :=
  { activityType := kind.code, location, voyageNumber := voyage }

def newCargoBooked (trackingId origin destination : String) : NewCargoBooked :=
  { trackingId, origin, destination
    delivery := some { nextExpectedActivity := some (activity .receive origin "") } }

def cargoDestinationChanged (trackingId destination : String) : CargoDestinationChanged :=
  { trackingId, destination }

def cargoToRouteAssigned (trackingId voyage origin destination : String) (eta : Timestamp) :
    CargoToRouteAssigned :=
  let leg : Leg :=
    { voyageNumber := voyage, loadLocation := origin, unloadLocation := destination
      unloadTime := some eta }
  { trackingId
    eta := some eta
    itinerary := some { legs := [leg] }
    delivery := some
      { nextExpectedActivity := some (activity .receive origin ""), eta := some eta } }

/-- The activity that usually brings a cargo into a status. -/
def lastActivity : TransportStatus → HandlingType
  | .onboardCarrier => .load
  | .inPort => .unload
  | .claimed => .claim
  | .notReceived | .unknown => .notHandled

def cargoWasHandled (trackingId : String) (status : TransportStatus) (location voyage : String)
    (next : Option HandlingActivity) : CargoWasHandled :=
  let last := activity (lastActivity status) location voyage
  { trackingId
    delivery := some
      { transportStatus := status.code
        nextExpectedActivity := next
        lastEvent := some { trackingId, activity := some last }
        lastKnownLocation := location
        currentVoyage := voyage } }

/-- Where sample clocks stand: 2025-01-01T00:00:00. -/
def clock : Calendar.Instant :=
  ⟨1735689600, 0, by decide, by decide, .inl (by decide)⟩

end CargoEvents.Samples
