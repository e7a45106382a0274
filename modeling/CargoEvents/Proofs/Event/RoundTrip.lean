import CargoEvents.Event.Codec
import CargoEvents.Proofs.Wire.Messages

/-! # Events read back

Every message type is lawful within the budget that its nesting needs, which is three
levels at most: a booking holds a delivery, this a handling event, and this an activity.
-/
namespace CargoEvents
open Wire (Field Schema)

namespace Codec

theorem lawful_timestamp (budget : Nat) : timestamp.Lawful budget := by
  refine Schema.lawful_of_fills fun _ =>
    .slot (Field.lawful_int64 _) ?_ <| .slot (Field.lawful_int32 _) ?_ .done
  all_goals exact ⟨by decide, rfl, fun _ _ => rfl, fun _ _ _ => rfl, fun _ => rfl, rfl⟩

theorem lawful_handlingActivity (budget : Nat) : handlingActivity.Lawful budget := by
  have text := Field.lawful_text budget
  refine Schema.lawful_of_fills fun _ =>
    .slot (Field.lawful_int32 _) ?_ <| .slot text ?_ <| .slot text ?_ .done
  all_goals exact ⟨by decide, rfl, fun _ _ => rfl, fun _ _ _ => rfl, fun _ => rfl, rfl⟩

theorem lawful_handlingEvent (budget : Nat) : handlingEvent.Lawful (budget + 1) := by
  refine Schema.lawful_of_fills fun _ =>
    .slot (Field.lawful_text _) ?_ <| .slot (lawful_handlingActivity _).optional ?_ .done
  all_goals exact ⟨by decide, rfl, fun _ _ => rfl, fun _ _ _ => rfl, fun _ => rfl, rfl⟩

theorem lawful_leg (budget : Nat) : leg.Lawful (budget + 1) := by
  have text := Field.lawful_text (budget + 1)
  have time := (lawful_timestamp budget).optional
  refine Schema.lawful_of_fills fun _ =>
    .slot text ?_ <| .slot text ?_ <| .slot text ?_ <| .slot time ?_ <| .slot time ?_ .done
  all_goals exact ⟨by decide, rfl, fun _ _ => rfl, fun _ _ _ => rfl, fun _ => rfl, rfl⟩

theorem lawful_itinerary (budget : Nat) : itinerary.Lawful (budget + 2) := by
  refine Schema.lawful_of_fills fun _ => .slot (lawful_leg _).repeated ?_ .done
  all_goals exact ⟨by decide, rfl, fun _ _ => rfl, fun _ _ _ => rfl, fun _ => rfl, rfl⟩

theorem lawful_delivery (budget : Nat) : delivery.Lawful (budget + 2) := by
  have text := Field.lawful_text (budget + 2)
  have flag := Field.lawful_bool (budget + 2)
  have activity := (lawful_handlingActivity (budget + 1)).optional
  have event := (lawful_handlingEvent budget).optional
  have time := (lawful_timestamp (budget + 1)).optional
  refine Schema.lawful_of_fills fun _ =>
    .slot (Field.lawful_int32 _) ?_ <| .slot activity ?_ <| .slot event ?_ <| .slot flag ?_ <|
    .slot text ?_ <| .slot text ?_ <| .slot time ?_ <| .slot flag ?_ <| .slot flag ?_ .done
  all_goals exact ⟨by decide, rfl, fun _ _ => rfl, fun _ _ _ => rfl, fun _ => rfl, rfl⟩

theorem lawful_newCargoBooked (budget : Nat) : newCargoBooked.Lawful (budget + 3) := by
  have text := Field.lawful_text (budget + 3)
  have time := (lawful_timestamp (budget + 2)).optional
  refine Schema.lawful_of_fills fun _ =>
    .slot text ?_ <| .slot text ?_ <| .slot text ?_ <| .slot time ?_ <|
    .slot (lawful_delivery _).optional ?_ .done
  all_goals exact ⟨by decide, rfl, fun _ _ => rfl, fun _ _ _ => rfl, fun _ => rfl, rfl⟩

theorem lawful_cargoDestinationChanged (budget : Nat) : cargoDestinationChanged.Lawful budget := by
  have text := Field.lawful_text budget
  refine Schema.lawful_of_fills fun _ => .slot text ?_ <| .slot text ?_ .done
  all_goals exact ⟨by decide, rfl, fun _ _ => rfl, fun _ _ _ => rfl, fun _ => rfl, rfl⟩

theorem lawful_cargoToRouteAssigned (budget : Nat) : cargoToRouteAssigned.Lawful (budget + 3) := by
  have time := (lawful_timestamp (budget + 2)).optional
  refine Schema.lawful_of_fills fun _ =>
    .slot (Field.lawful_text _) ?_ <| .slot time ?_ <| .slot (lawful_itinerary _).optional ?_ <|
    .slot (lawful_delivery _).optional ?_ .done
  all_goals exact ⟨by decide, rfl, fun _ _ => rfl, fun _ _ _ => rfl, fun _ => rfl, rfl⟩

theorem lawful_cargoWasHandled (budget : Nat) : cargoWasHandled.Lawful (budget + 3) := by
  refine Schema.lawful_of_fills fun _ =>
    .slot (Field.lawful_text _) ?_ <| .slot (lawful_delivery _).optional ?_ .done
  all_goals exact ⟨by decide, rfl, fun _ _ => rfl, fun _ _ _ => rfl, fun _ => rfl, rfl⟩

end Codec

namespace Event

theorem read_encode {e : Event} (h : e.encodedSize < 2 ^ 64) : read e.kind e.encode = .ok e := by
  have lift {α : Type} {schema : Schema α} (hl : schema.Lawful Wire.depthLimit) {a : α}
      (hs : schema.size a < 2 ^ 64) (f : α → Event) :
      (schema.read (schema.write a)).map f = .ok (f a) := by
    rw [hl.read hs]
    rfl
  cases e with
  | newCargoBooked e => exact lift (Codec.lawful_newCargoBooked 97) h _
  | cargoDestinationChanged e => exact lift (Codec.lawful_cargoDestinationChanged 100) h _
  | cargoToRouteAssigned e => exact lift (Codec.lawful_cargoToRouteAssigned 97) h _
  | cargoWasHandled e => exact lift (Codec.lawful_cargoWasHandled 97) h _
  | handlingEvent e => exact lift (Codec.lawful_handlingEvent 99) h _

theorem encode_length {e : Event} (h : e.encodedSize < 2 ^ 64) :
    e.encode.length = e.encodedSize := by
  cases e with
  | newCargoBooked e => exact (Codec.lawful_newCargoBooked 0).length h
  | cargoDestinationChanged e => exact (Codec.lawful_cargoDestinationChanged 0).length h
  | cargoToRouteAssigned e => exact (Codec.lawful_cargoToRouteAssigned 0).length h
  | cargoWasHandled e => exact (Codec.lawful_cargoWasHandled 0).length h
  | handlingEvent e => exact (Codec.lawful_handlingEvent 0).length h

theorem decode_encode {e : Event} (h : e.encodedSize < 2 ^ 64) :
    decode e.kind e.encode = .ok e := by
  rw [decode, read_encode h]
  rfl

/-- An event of any kind is read back from what is written of it as it was: absent and empty
messages stay apart, and so do all codes, assigned or not. What is written has the size
computed beforehand. Lengths on the wire have 64 bits, and so must the size. -/
theorem written_and_read_back (e : Event) (fits : e.encodedSize < 2 ^ 64) :
    decode e.kind e.encode = .ok e ∧ e.encode.length = e.encodedSize :=
  ⟨decode_encode fits, encode_length fits⟩

/-- A route of an empty leg and a full one, with codes and times at their limits. -/
theorem written_and_read_back_route :
    let route : Event := .cargoToRouteAssigned {
      trackingId := "北7"
      eta := some {}
      itinerary := some { legs := [{}, {
        voyageNumber := "V"
        loadTime := some {}
        unloadTime := some { seconds := Int64.minValue, nanos := Int32.minValue } }] }
      delivery := some {
        transportStatus := -1
        nextExpectedActivity := some {}
        lastEvent := some { activity := some { activityType := 77 } } } }
    route.encodedSize < 2 ^ 64 ∧ decode .cargoToRouteAssigned route.encode = .ok route ∧
      route.encode.length = 64 := by
  intro route
  have fits : route.encodedSize < 2 ^ 64 := by decide +kernel
  have size : route.encodedSize = 64 := by decide +kernel
  obtain ⟨hdecode, hlength⟩ := written_and_read_back route fits
  exact ⟨fits, hdecode, hlength.trans size⟩

end Event
end CargoEvents
