import CargoEvents.Event.Basic
import CargoEvents.Text.Quoted

/-! # Events in log records

An assigned code of an enumeration shows as its name, any other as the number.
-/
namespace CargoEvents
open Text

def Timestamp.shown (t : Timestamp) : String :=
  shownRecord "Timestamp" [("seconds", toString t.seconds.toInt), ("nanos", toString t.nanos.toInt)]

def HandlingType.shown (n : Int32) : String := ((ofCode? n).map name).getD (toString n.toInt)

def TransportStatus.shown (n : Int32) : String := ((ofCode? n).map name).getD (toString n.toInt)

def HandlingActivity.shown (a : HandlingActivity) : String :=
  shownRecord "HandlingActivity" [
    ("activity_type", HandlingType.shown a.activityType), ("location", quoted a.location),
    ("voyage_number", quoted a.voyageNumber)]

def HandlingEvent.shown (e : HandlingEvent) : String :=
  shownRecord "HandlingEvent" [
    ("tracking_id", quoted e.trackingId),
    ("activity", shownOption HandlingActivity.shown e.activity)]

def Leg.shown (l : Leg) : String :=
  shownRecord "Leg" [
    ("voyage_number", quoted l.voyageNumber), ("load_location", quoted l.loadLocation),
    ("unload_location", quoted l.unloadLocation),
    ("load_time", shownOption Timestamp.shown l.loadTime),
    ("unload_time", shownOption Timestamp.shown l.unloadTime)]

def Itinerary.shown (i : Itinerary) : String :=
  shownRecord "Itinerary" [("legs", shownList Leg.shown i.legs)]

def Delivery.shown (d : Delivery) : String :=
  shownRecord "Delivery" [
    ("transport_status", TransportStatus.shown d.transportStatus),
    ("next_expected_activity", shownOption HandlingActivity.shown d.nextExpectedActivity),
    ("last_event", shownOption HandlingEvent.shown d.lastEvent),
    ("is_last_event_expected", toString d.isLastEventExpected),
    ("last_known_location", quoted d.lastKnownLocation),
    ("current_voyage", quoted d.currentVoyage),
    ("eta", shownOption Timestamp.shown d.eta),
    ("is_misdirected", toString d.isMisdirected),
    ("is_unloaded_at_destination", toString d.isUnloadedAtDestination)]

def Event.shown : Event → String
  | .newCargoBooked e => shownRecord "NewCargoBooked" [
      ("tracking_id", quoted e.trackingId), ("origin", quoted e.origin),
      ("destination", quoted e.destination),
      ("arrival_deadline", shownOption Timestamp.shown e.arrivalDeadline),
      ("delivery", shownOption Delivery.shown e.delivery)]
  | .cargoDestinationChanged e => shownRecord "CargoDestinationChanged" [
      ("tracking_id", quoted e.trackingId), ("destination", quoted e.destination)]
  | .cargoToRouteAssigned e => shownRecord "CargoToRouteAssigned" [
      ("tracking_id", quoted e.trackingId), ("eta", shownOption Timestamp.shown e.eta),
      ("itinerary", shownOption Itinerary.shown e.itinerary),
      ("delivery", shownOption Delivery.shown e.delivery)]
  | .cargoWasHandled e => shownRecord "CargoWasHandled" [
      ("tracking_id", quoted e.trackingId), ("delivery", shownOption Delivery.shown e.delivery)]
  | .handlingEvent e => e.shown

end CargoEvents
