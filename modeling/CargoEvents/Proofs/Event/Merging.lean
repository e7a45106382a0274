import CargoEvents.Proofs.Event.Skew
import CargoEvents.Proofs.Wire.Merging

/-! # Events written one after the other

To merge two events of a kind is to take each scalar from the second unless it is the default there,
to merge the messages that both have and to keep the one that only one of them has; legs are
appended. The wire forms of the two in a row are a wire form of what they merge to.
-/
namespace CargoEvents
open Wire (Field Schema)
open Wire.Field (latest latest_blank blank_latest latest_assoc)

/-! ## Merging -/

def Timestamp.merge (x y : Timestamp) : Timestamp where
  seconds := latest 0 x.seconds y.seconds
  nanos := latest 0 x.nanos y.nanos

def HandlingActivity.merge (x y : HandlingActivity) : HandlingActivity where
  activityType := latest 0 x.activityType y.activityType
  location := latest "" x.location y.location
  voyageNumber := latest "" x.voyageNumber y.voyageNumber

def HandlingEvent.merge (x y : HandlingEvent) : HandlingEvent where
  trackingId := latest "" x.trackingId y.trackingId
  activity := x.activity.merge HandlingActivity.merge y.activity

def Itinerary.merge (x y : Itinerary) : Itinerary where
  legs := x.legs ++ y.legs

def Delivery.merge (x y : Delivery) : Delivery where
  transportStatus := latest 0 x.transportStatus y.transportStatus
  nextExpectedActivity :=
    x.nextExpectedActivity.merge HandlingActivity.merge y.nextExpectedActivity
  lastEvent := x.lastEvent.merge HandlingEvent.merge y.lastEvent
  isLastEventExpected := latest false x.isLastEventExpected y.isLastEventExpected
  lastKnownLocation := latest "" x.lastKnownLocation y.lastKnownLocation
  currentVoyage := latest "" x.currentVoyage y.currentVoyage
  eta := x.eta.merge Timestamp.merge y.eta
  isMisdirected := latest false x.isMisdirected y.isMisdirected
  isUnloadedAtDestination := latest false x.isUnloadedAtDestination y.isUnloadedAtDestination

def NewCargoBooked.merge (x y : NewCargoBooked) : NewCargoBooked where
  trackingId := latest "" x.trackingId y.trackingId
  origin := latest "" x.origin y.origin
  destination := latest "" x.destination y.destination
  arrivalDeadline := x.arrivalDeadline.merge Timestamp.merge y.arrivalDeadline
  delivery := x.delivery.merge Delivery.merge y.delivery

def CargoDestinationChanged.merge (x y : CargoDestinationChanged) : CargoDestinationChanged where
  trackingId := latest "" x.trackingId y.trackingId
  destination := latest "" x.destination y.destination

def CargoToRouteAssigned.merge (x y : CargoToRouteAssigned) : CargoToRouteAssigned where
  trackingId := latest "" x.trackingId y.trackingId
  eta := x.eta.merge Timestamp.merge y.eta
  itinerary := x.itinerary.merge Itinerary.merge y.itinerary
  delivery := x.delivery.merge Delivery.merge y.delivery

def CargoWasHandled.merge (x y : CargoWasHandled) : CargoWasHandled where
  trackingId := latest "" x.trackingId y.trackingId
  delivery := x.delivery.merge Delivery.merge y.delivery

def EventKind.merge : (kind : EventKind) → (x y : Codec.format.Body kind.message) →
    Codec.format.Body kind.message
  | .newCargoBooked => NewCargoBooked.merge
  | .cargoDestinationChanged => CargoDestinationChanged.merge
  | .cargoToRouteAssigned => CargoToRouteAssigned.merge
  | .cargoWasHandled => CargoWasHandled.merge
  | .handlingEvent => HandlingEvent.merge

/-! ## A monoid -/

theorem option_merge_assoc {α : Type} {f : α → α → α} (assoc : ∀ a b c, f (f a b) c = f a (f b c))
    (x y z : Option α) : (x.merge f y).merge f z = x.merge f (y.merge f z) :=
  have : Std.Associative f := ⟨assoc⟩
  (Option.associative_merge f).assoc x y z

theorem Timestamp.merge_assoc (x y z : Timestamp) :
    (x.merge y).merge z = x.merge (y.merge z) := by
  simp only [merge, latest_assoc]

theorem HandlingActivity.merge_assoc (x y z : HandlingActivity) :
    (x.merge y).merge z = x.merge (y.merge z) := by
  simp only [merge, latest_assoc]

theorem HandlingEvent.merge_assoc (x y z : HandlingEvent) :
    (x.merge y).merge z = x.merge (y.merge z) := by
  simp only [merge, latest_assoc, option_merge_assoc HandlingActivity.merge_assoc]

theorem Itinerary.merge_assoc (x y z : Itinerary) :
    (x.merge y).merge z = x.merge (y.merge z) := by
  simp only [merge, List.append_assoc]

theorem Delivery.merge_assoc (x y z : Delivery) : (x.merge y).merge z = x.merge (y.merge z) := by
  simp only [merge, latest_assoc, option_merge_assoc HandlingActivity.merge_assoc,
    option_merge_assoc HandlingEvent.merge_assoc, option_merge_assoc Timestamp.merge_assoc]

theorem NewCargoBooked.merge_assoc (x y z : NewCargoBooked) :
    (x.merge y).merge z = x.merge (y.merge z) := by
  simp only [merge, latest_assoc, option_merge_assoc Timestamp.merge_assoc,
    option_merge_assoc Delivery.merge_assoc]

theorem CargoDestinationChanged.merge_assoc (x y z : CargoDestinationChanged) :
    (x.merge y).merge z = x.merge (y.merge z) := by
  simp only [merge, latest_assoc]

theorem CargoToRouteAssigned.merge_assoc (x y z : CargoToRouteAssigned) :
    (x.merge y).merge z = x.merge (y.merge z) := by
  simp only [merge, latest_assoc, option_merge_assoc Timestamp.merge_assoc,
    option_merge_assoc Itinerary.merge_assoc, option_merge_assoc Delivery.merge_assoc]

theorem CargoWasHandled.merge_assoc (x y z : CargoWasHandled) :
    (x.merge y).merge z = x.merge (y.merge z) := by
  simp only [merge, latest_assoc, option_merge_assoc Delivery.merge_assoc]

namespace EventKind

theorem merge_assoc : (kind : EventKind) → (x y z : Codec.format.Body kind.message) →
    kind.merge (kind.merge x y) z = kind.merge x (kind.merge y z)
  | .newCargoBooked => NewCargoBooked.merge_assoc
  | .cargoDestinationChanged => CargoDestinationChanged.merge_assoc
  | .cargoToRouteAssigned => CargoToRouteAssigned.merge_assoc
  | .cargoWasHandled => CargoWasHandled.merge_assoc
  | .handlingEvent => HandlingEvent.merge_assoc

def blank (kind : EventKind) : Codec.format.Body kind.message :=
  (Codec.format.schema kind.message).blank

theorem merge_blank : (kind : EventKind) → (x : Codec.format.Body kind.message) →
    kind.merge x kind.blank = x
  | .newCargoBooked, (x : NewCargoBooked) => show x.merge {} = x by
    simp only [NewCargoBooked.merge, latest_blank, Option.merge_none_right]
  | .cargoDestinationChanged, (x : CargoDestinationChanged) => show x.merge {} = x by
    simp only [CargoDestinationChanged.merge, latest_blank]
  | .cargoToRouteAssigned, (x : CargoToRouteAssigned) => show x.merge {} = x by
    simp only [CargoToRouteAssigned.merge, latest_blank, Option.merge_none_right]
  | .cargoWasHandled, (x : CargoWasHandled) => show x.merge {} = x by
    simp only [CargoWasHandled.merge, latest_blank, Option.merge_none_right]
  | .handlingEvent, (x : HandlingEvent) => show x.merge {} = x by
    simp only [HandlingEvent.merge, latest_blank, Option.merge_none_right]

theorem blank_merge : (kind : EventKind) → (x : Codec.format.Body kind.message) →
    kind.merge kind.blank x = x
  | .newCargoBooked, (x : NewCargoBooked) => show NewCargoBooked.merge {} x = x by
    simp only [NewCargoBooked.merge, blank_latest, Option.merge_none_left]
  | .cargoDestinationChanged, (x : CargoDestinationChanged) =>
    show CargoDestinationChanged.merge {} x = x by
    simp only [CargoDestinationChanged.merge, blank_latest]
  | .cargoToRouteAssigned, (x : CargoToRouteAssigned) => show CargoToRouteAssigned.merge {} x = x by
    simp only [CargoToRouteAssigned.merge, blank_latest, Option.merge_none_left]
  | .cargoWasHandled, (x : CargoWasHandled) => show CargoWasHandled.merge {} x = x by
    simp only [CargoWasHandled.merge, blank_latest, Option.merge_none_left]
  | .handlingEvent, (x : HandlingEvent) => show HandlingEvent.merge {} x = x by
    simp only [HandlingEvent.merge, blank_latest, Option.merge_none_left]

end EventKind

/-! ## Reading on -/

namespace Codec

theorem joins_timestamp (budget : Nat) : timestamp.Joins budget Timestamp.merge := by
  refine Schema.joins_of_gathers fun _ _ =>
    .slot (Field.joins_int64 _) ?_ <| .slot (Field.joins_int32 _) ?_ .done
  all_goals exact ⟨by decide, rfl, fun _ _ => rfl, fun _ _ _ => rfl, fun _ => rfl, rfl⟩

theorem joins_handlingActivity (budget : Nat) :
    handlingActivity.Joins budget HandlingActivity.merge := by
  have text := Field.joins_text budget
  refine Schema.joins_of_gathers fun _ _ =>
    .slot (Field.joins_int32 _) ?_ <| .slot text ?_ <| .slot text ?_ .done
  all_goals exact ⟨by decide, rfl, fun _ _ => rfl, fun _ _ _ => rfl, fun _ => rfl, rfl⟩

theorem joins_handlingEvent (budget : Nat) :
    handlingEvent.Joins (budget + 1) HandlingEvent.merge := by
  have activity := (joins_handlingActivity budget).optional (lawful_handlingActivity budget)
  refine Schema.joins_of_gathers fun _ _ =>
    .slot (Field.joins_text _) ?_ <| .slot activity ?_ .done
  all_goals exact ⟨by decide, rfl, fun _ _ => rfl, fun _ _ _ => rfl, fun _ => rfl, rfl⟩

theorem joins_itinerary (budget : Nat) : itinerary.Joins (budget + 2) Itinerary.merge := by
  refine Schema.joins_of_gathers fun _ _ => .slot (lawful_leg _).joins_repeated ?_ .done
  all_goals exact ⟨by decide, rfl, fun _ _ => rfl, fun _ _ _ => rfl, fun _ => rfl, rfl⟩

theorem joins_delivery (budget : Nat) : delivery.Joins (budget + 2) Delivery.merge := by
  have text := Field.joins_text (budget + 2)
  have flag := Field.joins_bool (budget + 2)
  have activity := (joins_handlingActivity (budget + 1)).optional (lawful_handlingActivity _)
  have event := (joins_handlingEvent budget).optional (lawful_handlingEvent _)
  have time := (joins_timestamp (budget + 1)).optional (lawful_timestamp _)
  refine Schema.joins_of_gathers fun _ _ =>
    .slot (Field.joins_int32 _) ?_ <| .slot activity ?_ <| .slot event ?_ <| .slot flag ?_ <|
    .slot text ?_ <| .slot text ?_ <| .slot time ?_ <| .slot flag ?_ <| .slot flag ?_ .done
  all_goals exact ⟨by decide, rfl, fun _ _ => rfl, fun _ _ _ => rfl, fun _ => rfl, rfl⟩

theorem joins_newCargoBooked (budget : Nat) :
    newCargoBooked.Joins (budget + 3) NewCargoBooked.merge := by
  have text := Field.joins_text (budget + 3)
  have time := (joins_timestamp (budget + 2)).optional (lawful_timestamp _)
  have delivery := (joins_delivery budget).optional (lawful_delivery _)
  refine Schema.joins_of_gathers fun _ _ =>
    .slot text ?_ <| .slot text ?_ <| .slot text ?_ <| .slot time ?_ <| .slot delivery ?_ .done
  all_goals exact ⟨by decide, rfl, fun _ _ => rfl, fun _ _ _ => rfl, fun _ => rfl, rfl⟩

theorem joins_cargoDestinationChanged (budget : Nat) :
    cargoDestinationChanged.Joins budget CargoDestinationChanged.merge := by
  have text := Field.joins_text budget
  refine Schema.joins_of_gathers fun _ _ => .slot text ?_ <| .slot text ?_ .done
  all_goals exact ⟨by decide, rfl, fun _ _ => rfl, fun _ _ _ => rfl, fun _ => rfl, rfl⟩

theorem joins_cargoToRouteAssigned (budget : Nat) :
    cargoToRouteAssigned.Joins (budget + 3) CargoToRouteAssigned.merge := by
  have time := (joins_timestamp (budget + 2)).optional (lawful_timestamp _)
  have itinerary := (joins_itinerary budget).optional (lawful_itinerary _)
  have delivery := (joins_delivery budget).optional (lawful_delivery _)
  refine Schema.joins_of_gathers fun _ _ =>
    .slot (Field.joins_text _) ?_ <| .slot time ?_ <| .slot itinerary ?_ <|
    .slot delivery ?_ .done
  all_goals exact ⟨by decide, rfl, fun _ _ => rfl, fun _ _ _ => rfl, fun _ => rfl, rfl⟩

theorem joins_cargoWasHandled (budget : Nat) :
    cargoWasHandled.Joins (budget + 3) CargoWasHandled.merge := by
  have delivery := (joins_delivery budget).optional (lawful_delivery _)
  refine Schema.joins_of_gathers fun _ _ =>
    .slot (Field.joins_text _) ?_ <| .slot delivery ?_ .done
  all_goals exact ⟨by decide, rfl, fun _ _ => rfl, fun _ _ _ => rfl, fun _ => rfl, rfl⟩

end Codec

namespace Event

theorem joins_message : (kind : EventKind) →
    (Codec.format.schema kind.message).Joins Wire.depthLimit kind.merge
  | .newCargoBooked => Codec.joins_newCargoBooked 97
  | .cargoDestinationChanged => Codec.joins_cargoDestinationChanged 100
  | .cargoToRouteAssigned => Codec.joins_cargoToRouteAssigned 97
  | .cargoWasHandled => Codec.joins_cargoWasHandled 97
  | .handlingEvent => Codec.joins_handlingEvent 99

theorem decode_append (kind : EventKind) {x y : Codec.format.Body kind.message}
    (hx : (ofMessage kind x).encodedSize < 2 ^ 64) (hy : (ofMessage kind y).encodedSize < 2 ^ 64) :
    decode kind ((ofMessage kind x).encode ++ (ofMessage kind y).encode) =
      .ok (ofMessage kind (kind.merge x y)) := by
  rw [encodedSize_ofMessage] at hx hy
  rw [encode_ofMessage, encode_ofMessage]
  exact decode_eq_ok.mpr ⟨_, (joins_message kind).read (lawful_message kind) hx hy, rfl⟩

/-- What is written of two events of a kind, one after the other, is read as the second merged into
the first. Merging is associative, and the event of defaults changes nothing in it. -/
theorem concatenation_merges (kind : EventKind) :
    (∀ x y, (ofMessage kind x).encodedSize < 2 ^ 64 → (ofMessage kind y).encodedSize < 2 ^ 64 →
      decode kind ((ofMessage kind x).encode ++ (ofMessage kind y).encode) =
        .ok (ofMessage kind (kind.merge x y))) ∧
    (∀ x y z, kind.merge (kind.merge x y) z = kind.merge x (kind.merge y z)) ∧
    ∀ x, kind.merge x kind.blank = x ∧ kind.merge kind.blank x = x :=
  ⟨fun _ _ => decode_append kind, kind.merge_assoc,
    fun x => ⟨kind.merge_blank x, kind.blank_merge x⟩⟩

/-- A route that is told in two parts: the time of arrival has its seconds from the second part and
its nanoseconds from the first. -/
theorem concatenation_merges_route :
    let first : CargoToRouteAssigned := {
      trackingId := "A"
      eta := some { seconds := 5, nanos := 7 }
      itinerary := some { legs := [{ voyageNumber := "V" }] } }
    let second : CargoToRouteAssigned := {
      eta := some { seconds := 9 }
      itinerary := some { legs := [{}] }
      delivery := some {} }
    (Event.cargoToRouteAssigned first).encodedSize < 2 ^ 64 ∧
      (Event.cargoToRouteAssigned second).encodedSize < 2 ^ 64 ∧
      decode .cargoToRouteAssigned
        ((Event.cargoToRouteAssigned first).encode ++ (Event.cargoToRouteAssigned second).encode) =
        .ok (.cargoToRouteAssigned {
          trackingId := "A"
          eta := some { seconds := 9, nanos := 7 }
          itinerary := some { legs := [{ voyageNumber := "V" }, {}] }
          delivery := some {} }) := by
  intro first second
  have hfirst : (Event.cargoToRouteAssigned first).encodedSize < 2 ^ 64 := by decide +kernel
  have hsecond : (Event.cargoToRouteAssigned second).encodedSize < 2 ^ 64 := by decide +kernel
  exact ⟨hfirst, hsecond,
    (concatenation_merges .cargoToRouteAssigned).1 first second hfirst hsecond⟩

end Event
end CargoEvents
