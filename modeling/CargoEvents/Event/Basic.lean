/-! # Shipping events

What the booking, routing and handling of cargo announce. Codes of an enumeration are
kept as the numbers that travel, so a code assigned later survives; `HandlingType.ofCode?`
and `TransportStatus.ofCode?` read the assigned ones.
-/
namespace CargoEvents

/-- Seconds since 1970 and nanoseconds within the second, as they travel. -/
structure Timestamp where
  seconds : Int64 := 0
  nanos : Int32 := 0
  deriving DecidableEq, Repr

inductive HandlingType
  | notHandled | load | unload | receive | claim | customs
  deriving DecidableEq, Repr

namespace HandlingType

def all : List HandlingType := [.notHandled, .load, .unload, .receive, .claim, .customs]

def code : HandlingType → Int32
  | .notHandled => 0
  | .load => 1
  | .unload => 2
  | .receive => 3
  | .claim => 4
  | .customs => 5

def ofCode? (n : Int32) : Option HandlingType := all.find? (·.code == n)

@[simp] theorem ofCode?_code (t : HandlingType) : ofCode? t.code = some t := by
  cases t <;> rfl

/-- The type a field shows: an unassigned code counts as the default. -/
def ofCode (n : Int32) : HandlingType := (ofCode? n).getD .notHandled

def name : HandlingType → String
  | .notHandled => "NotHandled"
  | .load => "Load"
  | .unload => "Unload"
  | .receive => "Receive"
  | .claim => "Claim"
  | .customs => "Customs"

def verb : HandlingType → String
  | .notHandled => "nothandled"
  | .load => "load"
  | .unload => "unload"
  | .receive => "receive"
  | .claim => "claim"
  | .customs => "customs"

end HandlingType

inductive TransportStatus
  | notReceived | inPort | onboardCarrier | claimed | unknown
  deriving DecidableEq, Repr

namespace TransportStatus

def all : List TransportStatus := [.notReceived, .inPort, .onboardCarrier, .claimed, .unknown]

def code : TransportStatus → Int32
  | .notReceived => 0
  | .inPort => 1
  | .onboardCarrier => 2
  | .claimed => 3
  | .unknown => 4

def ofCode? (n : Int32) : Option TransportStatus := all.find? (·.code == n)

@[simp] theorem ofCode?_code (s : TransportStatus) : ofCode? s.code = some s := by
  cases s <;> rfl

def ofCode (n : Int32) : TransportStatus := (ofCode? n).getD .notReceived

def name : TransportStatus → String
  | .notReceived => "NotReceived"
  | .inPort => "InPort"
  | .onboardCarrier => "OnboardCarrier"
  | .claimed => "Claimed"
  | .unknown => "Unknown"

end TransportStatus

def unassignedCode (n : Int32) : String := s!"unknown enumeration value {n.toInt}"

structure HandlingActivity where
  activityType : Int32 := 0
  location : String := ""
  voyageNumber : String := ""
  deriving DecidableEq, Repr

structure HandlingEvent where
  trackingId : String := ""
  activity : Option HandlingActivity := none
  deriving DecidableEq, Repr

structure Leg where
  voyageNumber : String := ""
  loadLocation : String := ""
  unloadLocation : String := ""
  loadTime : Option Timestamp := none
  unloadTime : Option Timestamp := none
  deriving DecidableEq, Repr

structure Itinerary where
  legs : List Leg := []
  deriving DecidableEq, Repr

structure Delivery where
  transportStatus : Int32 := 0
  nextExpectedActivity : Option HandlingActivity := none
  lastEvent : Option HandlingEvent := none
  isLastEventExpected : Bool := false
  lastKnownLocation : String := ""
  currentVoyage : String := ""
  eta : Option Timestamp := none
  isMisdirected : Bool := false
  isUnloadedAtDestination : Bool := false
  deriving DecidableEq, Repr

structure NewCargoBooked where
  trackingId : String := ""
  origin : String := ""
  destination : String := ""
  arrivalDeadline : Option Timestamp := none
  delivery : Option Delivery := none
  deriving DecidableEq, Repr

structure CargoDestinationChanged where
  trackingId : String := ""
  destination : String := ""
  deriving DecidableEq, Repr

structure CargoToRouteAssigned where
  trackingId : String := ""
  eta : Option Timestamp := none
  itinerary : Option Itinerary := none
  delivery : Option Delivery := none
  deriving DecidableEq, Repr

structure CargoWasHandled where
  trackingId : String := ""
  delivery : Option Delivery := none
  deriving DecidableEq, Repr

inductive EventKind
  | newCargoBooked | cargoDestinationChanged | cargoToRouteAssigned | cargoWasHandled
  | handlingEvent
  deriving DecidableEq, Repr

namespace EventKind

def all : List EventKind :=
  [.newCargoBooked, .cargoDestinationChanged, .cargoToRouteAssigned, .cargoWasHandled,
    .handlingEvent]

/-- The kind's name, which is also the key its messages are routed by. -/
def name : EventKind → String
  | .newCargoBooked => "NewCargoBooked"
  | .cargoDestinationChanged => "CargoDestinationChanged"
  | .cargoToRouteAssigned => "CargoToRouteAssigned"
  | .cargoWasHandled => "CargoWasHandled"
  | .handlingEvent => "HandlingEvent"

def ofName? (name : String) : Option EventKind := all.find? (·.name == name)

@[simp] theorem ofName?_name (k : EventKind) : ofName? k.name = some k := by
  cases k <;> rfl

theorem name_inj {k l : EventKind} : k.name = l.name ↔ k = l :=
  ⟨fun h => Option.some.inj (by rw [← ofName?_name k, h, ofName?_name]), fun h => h ▸ rfl⟩

end EventKind

inductive Event
  | newCargoBooked (e : NewCargoBooked)
  | cargoDestinationChanged (e : CargoDestinationChanged)
  | cargoToRouteAssigned (e : CargoToRouteAssigned)
  | cargoWasHandled (e : CargoWasHandled)
  | handlingEvent (e : HandlingEvent)
  deriving DecidableEq, Repr

def Event.kind : Event → EventKind
  | .newCargoBooked _ => .newCargoBooked
  | .cargoDestinationChanged _ => .cargoDestinationChanged
  | .cargoToRouteAssigned _ => .cargoToRouteAssigned
  | .cargoWasHandled _ => .cargoWasHandled
  | .handlingEvent _ => .handlingEvent

end CargoEvents
