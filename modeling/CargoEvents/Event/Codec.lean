import CargoEvents.Event.Basic
import CargoEvents.Wire.Schema

/-! # The wire form of events

Field numbers and names of every message, and reading and writing an event of a given
kind. Writing never fails.
-/
namespace CargoEvents
open Wire (Bytes Field Schema Fault)

namespace Codec

def timestamp : Schema Timestamp where
  name := "Timestamp"
  blank := {}
  slots := [
    Field.int64.slot 1 "seconds" (·.seconds) ({ · with seconds := · }),
    Field.int32.slot 2 "nanos" (·.nanos) ({ · with nanos := · })]

def handlingActivity : Schema HandlingActivity where
  name := "HandlingActivity"
  blank := {}
  slots := [
    Field.int32.slot 1 "activity_type" (·.activityType) ({ · with activityType := · }),
    Field.text.slot 2 "location" (·.location) ({ · with location := · }),
    Field.text.slot 3 "voyage_number" (·.voyageNumber) ({ · with voyageNumber := · })]

def handlingEvent : Schema HandlingEvent where
  name := "HandlingEvent"
  blank := {}
  slots := [
    Field.text.slot 1 "tracking_id" (·.trackingId) ({ · with trackingId := · }),
    (Field.optional handlingActivity).slot 2 "activity" (·.activity) ({ · with activity := · })]

def leg : Schema Leg where
  name := "Leg"
  blank := {}
  slots := [
    Field.text.slot 1 "voyage_number" (·.voyageNumber) ({ · with voyageNumber := · }),
    Field.text.slot 2 "load_location" (·.loadLocation) ({ · with loadLocation := · }),
    Field.text.slot 3 "unload_location" (·.unloadLocation) ({ · with unloadLocation := · }),
    (Field.optional timestamp).slot 4 "load_time" (·.loadTime) ({ · with loadTime := · }),
    (Field.optional timestamp).slot 5 "unload_time" (·.unloadTime) ({ · with unloadTime := · })]

def itinerary : Schema Itinerary where
  name := "Itinerary"
  blank := {}
  slots := [(Field.repeated leg).slot 1 "legs" (·.legs) ({ · with legs := · })]

def delivery : Schema Delivery where
  name := "Delivery"
  blank := {}
  slots := [
    Field.int32.slot 1 "transport_status" (·.transportStatus) ({ · with transportStatus := · }),
    (Field.optional handlingActivity).slot 2 "next_expected_activity" (·.nextExpectedActivity)
      ({ · with nextExpectedActivity := · }),
    (Field.optional handlingEvent).slot 3 "last_event" (·.lastEvent) ({ · with lastEvent := · }),
    Field.bool.slot 4 "is_last_event_expected" (·.isLastEventExpected)
      ({ · with isLastEventExpected := · }),
    Field.text.slot 5 "last_known_location" (·.lastKnownLocation)
      ({ · with lastKnownLocation := · }),
    Field.text.slot 6 "current_voyage" (·.currentVoyage) ({ · with currentVoyage := · }),
    (Field.optional timestamp).slot 7 "eta" (·.eta) ({ · with eta := · }),
    Field.bool.slot 8 "is_misdirected" (·.isMisdirected) ({ · with isMisdirected := · }),
    Field.bool.slot 9 "is_unloaded_at_destination" (·.isUnloadedAtDestination)
      ({ · with isUnloadedAtDestination := · })]

def newCargoBooked : Schema NewCargoBooked where
  name := "NewCargoBooked"
  blank := {}
  slots := [
    Field.text.slot 1 "tracking_id" (·.trackingId) ({ · with trackingId := · }),
    Field.text.slot 2 "origin" (·.origin) ({ · with origin := · }),
    Field.text.slot 3 "destination" (·.destination) ({ · with destination := · }),
    (Field.optional timestamp).slot 4 "arrival_deadline" (·.arrivalDeadline)
      ({ · with arrivalDeadline := · }),
    (Field.optional delivery).slot 5 "delivery" (·.delivery) ({ · with delivery := · })]

def cargoDestinationChanged : Schema CargoDestinationChanged where
  name := "CargoDestinationChanged"
  blank := {}
  slots := [
    Field.text.slot 1 "tracking_id" (·.trackingId) ({ · with trackingId := · }),
    Field.text.slot 2 "destination" (·.destination) ({ · with destination := · })]

def cargoToRouteAssigned : Schema CargoToRouteAssigned where
  name := "CargoToRouteAssigned"
  blank := {}
  slots := [
    Field.text.slot 1 "tracking_id" (·.trackingId) ({ · with trackingId := · }),
    (Field.optional timestamp).slot 2 "eta" (·.eta) ({ · with eta := · }),
    (Field.optional itinerary).slot 3 "itinerary" (·.itinerary) ({ · with itinerary := · }),
    (Field.optional delivery).slot 4 "delivery" (·.delivery) ({ · with delivery := · })]

def cargoWasHandled : Schema CargoWasHandled where
  name := "CargoWasHandled"
  blank := {}
  slots := [
    Field.text.slot 1 "tracking_id" (·.trackingId) ({ · with trackingId := · }),
    (Field.optional delivery).slot 2 "delivery" (·.delivery) ({ · with delivery := · })]

end Codec

inductive CodecError
  | encode (kind reason : String)
  | decode (kind reason : String)
  deriving DecidableEq, Repr

def CodecError.message : CodecError → String
  | .encode kind reason => s!"Failed to encode {kind}: {reason}"
  | .decode kind reason => s!"Failed to decode {kind}: {reason}"

namespace Event

def encode : Event → Bytes
  | .newCargoBooked e => Codec.newCargoBooked.write e
  | .cargoDestinationChanged e => Codec.cargoDestinationChanged.write e
  | .cargoToRouteAssigned e => Codec.cargoToRouteAssigned.write e
  | .cargoWasHandled e => Codec.cargoWasHandled.write e
  | .handlingEvent e => Codec.handlingEvent.write e

/-- The length of the wire form, computed without writing it. -/
def encodedSize : Event → Nat
  | .newCargoBooked e => Codec.newCargoBooked.size e
  | .cargoDestinationChanged e => Codec.cargoDestinationChanged.size e
  | .cargoToRouteAssigned e => Codec.cargoToRouteAssigned.size e
  | .cargoWasHandled e => Codec.cargoWasHandled.size e
  | .handlingEvent e => Codec.handlingEvent.size e

/-- Reads an event of kind `kind`, with the wire-level fault of a payload that is none. -/
def read (kind : EventKind) (bytes : Bytes) : Except Fault Event :=
  match kind with
  | .newCargoBooked => (Codec.newCargoBooked.read bytes).map .newCargoBooked
  | .cargoDestinationChanged => (Codec.cargoDestinationChanged.read bytes).map .cargoDestinationChanged
  | .cargoToRouteAssigned => (Codec.cargoToRouteAssigned.read bytes).map .cargoToRouteAssigned
  | .cargoWasHandled => (Codec.cargoWasHandled.read bytes).map .cargoWasHandled
  | .handlingEvent => (Codec.handlingEvent.read bytes).map .handlingEvent

def decode (kind : EventKind) (bytes : Bytes) : Except CodecError Event :=
  (read kind bytes).mapError fun fault => .decode kind.name fault.message

end Event
end CargoEvents
