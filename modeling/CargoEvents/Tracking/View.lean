import CargoEvents.Calendar.Rfc3339
import CargoEvents.Json.Value

/-! # Cargo views

What the tracking service shows of a cargo: where it goes, how it stands, and the history
of its handling, oldest first.
-/
namespace CargoEvents.Tracking
open Calendar (Instant)
open Json (Value)

structure HistoryEntry where
  description : String
  expected : Bool
  deriving DecidableEq, Repr

structure CargoView where
  trackingId : String
  statusText : String
  origin : String
  destination : String
  eta : Option Instant
  nextExpectedActivity : String
  arrivalDeadline : Option Instant
  events : List HistoryEntry
  deriving DecidableEq

/-- A cargo just booked: not received, without a route or a history. -/
def CargoView.booked (e : NewCargoBooked) : CargoView where
  trackingId := e.trackingId
  statusText := TransportStatus.notReceived.name
  origin := e.origin
  destination := e.destination
  eta := none
  nextExpectedActivity := ""
  arrivalDeadline := e.arrivalDeadline.bind Instant.ofTimestamp?
  events := []

def instantToJson (i : Instant) : Value := .str (Calendar.Rfc3339.render i)

def instantOfJson? (v : Value) : Option Instant := v.str?.bind Calendar.Rfc3339.read

def HistoryEntry.toJson (e : HistoryEntry) : Value :=
  .obj [("description", .str e.description), ("expected", .bool e.expected)]

def HistoryEntry.names : List String := ["description", "expected"]

def HistoryEntry.ofJson? (v : Value) : Option HistoryEntry := do
  let field ← v.record? names
  return {
    description := ← (← field "description").str?
    expected := ← (← field "expected").bool? }

def CargoView.toJson (c : CargoView) : Value :=
  .obj [("tracking_id", .str c.trackingId), ("status_text", .str c.statusText),
    ("origin", .str c.origin), ("destination", .str c.destination),
    ("eta", .ofOption instantToJson c.eta),
    ("next_expected_activity", .str c.nextExpectedActivity),
    ("arrival_deadline", .ofOption instantToJson c.arrivalDeadline),
    ("events", .arr (c.events.map HistoryEntry.toJson))]

def CargoView.names : List String :=
  ["tracking_id", "status_text", "origin", "destination", "eta", "next_expected_activity",
    "arrival_deadline", "events"]

def CargoView.ofJson? (v : Value) : Option CargoView := do
  let field ← v.record? names
  return {
    trackingId := ← (← field "tracking_id").str?
    statusText := ← (← field "status_text").str?
    origin := ← (← field "origin").str?
    destination := ← (← field "destination").str?
    eta := ← (Value.orNull (field "eta")).option? instantOfJson?
    nextExpectedActivity := ← (← field "next_expected_activity").str?
    arrivalDeadline := ← (Value.orNull (field "arrival_deadline")).option? instantOfJson?
    events := ← (← field "events").list? HistoryEntry.ofJson? }

end CargoEvents.Tracking
