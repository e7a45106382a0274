import CargoEvents.Proofs.Event.Skew
import CargoEvents.Proofs.Wire.Cutting
import Mathlib.Data.List.Infix

/-! # Truncated events

No field of an event is a list, so each is written in one record at most. What is read of a payload
that was cut off is the event without the fields behind the cut, or nothing.
-/
namespace CargoEvents
open Wire (Bytes Field Record Slot joined)

/-! ## Fields at their defaults -/

def NewCargoBooked.clear (e : NewCargoBooked) : Nat → NewCargoBooked
  | 1 => { e with trackingId := "" }
  | 2 => { e with origin := "" }
  | 3 => { e with destination := "" }
  | 4 => { e with arrivalDeadline := none }
  | 5 => { e with delivery := none }
  | _ => e

def CargoDestinationChanged.clear (e : CargoDestinationChanged) : Nat → CargoDestinationChanged
  | 1 => { e with trackingId := "" }
  | 2 => { e with destination := "" }
  | _ => e

def CargoToRouteAssigned.clear (e : CargoToRouteAssigned) : Nat → CargoToRouteAssigned
  | 1 => { e with trackingId := "" }
  | 2 => { e with eta := none }
  | 3 => { e with itinerary := none }
  | 4 => { e with delivery := none }
  | _ => e

def CargoWasHandled.clear (e : CargoWasHandled) : Nat → CargoWasHandled
  | 1 => { e with trackingId := "" }
  | 2 => { e with delivery := none }
  | _ => e

def HandlingEvent.clear (e : HandlingEvent) : Nat → HandlingEvent
  | 1 => { e with trackingId := "" }
  | 2 => { e with activity := none }
  | _ => e

namespace EventKind

def clear : (kind : EventKind) → Codec.format.Body kind.message → Nat →
    Codec.format.Body kind.message
  | .newCargoBooked => NewCargoBooked.clear
  | .cargoDestinationChanged => CargoDestinationChanged.clear
  | .cargoToRouteAssigned => CargoToRouteAssigned.clear
  | .cargoWasHandled => CargoWasHandled.clear
  | .handlingEvent => HandlingEvent.clear

end EventKind

namespace Codec

theorem clears_field (m : Message) {number : Nat} {φ : Type} (field : Wire.Field φ) (name : String)
    (get : format.Body m → φ) (set : format.Body m → φ → format.Body m)
    (place : (format.schema m).Place field number name get set) :
    format.Clears m (.here number) fun a => set a field.blank :=
  .here place

theorem clears : ∀ (kind : EventKind) (number : Nat),
    format.Clears kind.message (.here number) (kind.clear · number) := by
  refine fun
    | .newCargoBooked, 1 =>
      clears_field .newCargoBooked .text "tracking_id"
        (·.trackingId) ({ · with trackingId := · }) ?_
    | .newCargoBooked, 2 =>
      clears_field .newCargoBooked .text "origin" (·.origin) ({ · with origin := · }) ?_
    | .newCargoBooked, 3 =>
      clears_field .newCargoBooked .text "destination"
        (·.destination) ({ · with destination := · }) ?_
    | .newCargoBooked, 4 =>
      clears_field .newCargoBooked (.optional timestamp) "arrival_deadline"
        (·.arrivalDeadline) ({ · with arrivalDeadline := · }) ?_
    | .newCargoBooked, 5 =>
      clears_field .newCargoBooked (.optional delivery) "delivery"
        (·.delivery) ({ · with delivery := · }) ?_
    | .newCargoBooked, 0 | .newCargoBooked, _ + 6 => .none rfl
    | .cargoDestinationChanged, 1 =>
      clears_field .cargoDestinationChanged .text "tracking_id"
        (·.trackingId) ({ · with trackingId := · }) ?_
    | .cargoDestinationChanged, 2 =>
      clears_field .cargoDestinationChanged .text "destination"
        (·.destination) ({ · with destination := · }) ?_
    | .cargoDestinationChanged, 0 | .cargoDestinationChanged, _ + 3 => .none rfl
    | .cargoToRouteAssigned, 1 =>
      clears_field .cargoToRouteAssigned .text "tracking_id"
        (·.trackingId) ({ · with trackingId := · }) ?_
    | .cargoToRouteAssigned, 2 =>
      clears_field .cargoToRouteAssigned (.optional timestamp) "eta"
        (·.eta) ({ · with eta := · }) ?_
    | .cargoToRouteAssigned, 3 =>
      clears_field .cargoToRouteAssigned (.optional itinerary) "itinerary"
        (·.itinerary) ({ · with itinerary := · }) ?_
    | .cargoToRouteAssigned, 4 =>
      clears_field .cargoToRouteAssigned (.optional delivery) "delivery"
        (·.delivery) ({ · with delivery := · }) ?_
    | .cargoToRouteAssigned, 0 | .cargoToRouteAssigned, _ + 5 => .none rfl
    | .cargoWasHandled, 1 =>
      clears_field .cargoWasHandled .text "tracking_id"
        (·.trackingId) ({ · with trackingId := · }) ?_
    | .cargoWasHandled, 2 =>
      clears_field .cargoWasHandled (.optional delivery) "delivery"
        (·.delivery) ({ · with delivery := · }) ?_
    | .cargoWasHandled, 0 | .cargoWasHandled, _ + 3 => .none rfl
    | .handlingEvent, 1 =>
      clears_field .handlingEvent .text "tracking_id"
        (·.trackingId) ({ · with trackingId := · }) ?_
    | .handlingEvent, 2 =>
      clears_field .handlingEvent (.optional handlingActivity) "activity"
        (·.activity) ({ · with activity := · }) ?_
    | .handlingEvent, 0 | .handlingEvent, _ + 3 => .none rfl
  all_goals
    refine ⟨⟨by decide, rfl, fun _ _ => rfl, fun _ _ _ => rfl, fun _ => rfl, rfl⟩, ?_⟩
    repeat first
      | exact .nil
      | refine .own rfl ?_
      | refine .other (fun _ _ => rfl) (fun _ _ _ => rfl) ?_

/-! ## Fields in records -/

theorem single_slots : ∀ (kind : EventKind),
    ∀ slot ∈ (format.schema kind.message).slots, slot.Single := by
  have time := Field.single_optional (lawful_timestamp 0)
  have delivered := Field.single_optional (lawful_delivery 0)
  have planned := Field.single_optional (lawful_itinerary 0)
  have handled := Field.single_optional (lawful_handlingActivity 0)
  have text := Field.single_text
  refine fun
    | .newCargoBooked => List.forall_iff_forall_mem.mp
      ⟨text.slot ?_ _ _ _, text.slot ?_ _ _ _, text.slot ?_ _ _ _, time.slot ?_ _ _ _,
        delivered.slot ?_ _ _ _⟩
    | .cargoDestinationChanged => List.forall_iff_forall_mem.mp
      ⟨text.slot ?_ _ _ _, text.slot ?_ _ _ _⟩
    | .cargoToRouteAssigned => List.forall_iff_forall_mem.mp
      ⟨text.slot ?_ _ _ _, time.slot ?_ _ _ _, planned.slot ?_ _ _ _, delivered.slot ?_ _ _ _⟩
    | .cargoWasHandled => List.forall_iff_forall_mem.mp
      ⟨text.slot ?_ _ _ _, delivered.slot ?_ _ _ _⟩
    | .handlingEvent => List.forall_iff_forall_mem.mp
      ⟨text.slot ?_ _ _ _, handled.slot ?_ _ _ _⟩
  all_goals decide

theorem numbers_increasing (kind : EventKind) :
    ((format.schema kind.message).slots.map (·.number)).Pairwise (· < ·) := by
  cases kind <;> decide

end Codec

namespace Event

theorem decode_error {kind : EventKind} {bytes : Bytes} (h : ¬∃ e, decode kind bytes = .ok e) :
    ∃ reason, decode kind bytes = .error (.decode kind.name reason) := by
  unfold decode at h ⊢
  cases hread : read kind bytes with
  | error fault => exact ⟨fault.message, rfl⟩
  | ok e =>
    rw [hread] at h
    exact absurd ⟨e, rfl⟩ h

/-- The records that an event is written in, one at most for each of its fields. -/
theorem exists_records (kind : EventKind) {x : Codec.format.Body kind.message}
    (fits : (ofMessage kind x).encodedSize < 2 ^ 64) :
    ∃ rs : List Record, (∀ r ∈ rs, r.WellFormed) ∧ joined rs = (ofMessage kind x).encode ∧
      (rs.map (·.number)).Pairwise (· < ·) := by
  rw [encodedSize_ofMessage] at fits
  obtain ⟨rs, hrs, hjoined, hsub⟩ := Slot.exists_records (Codec.single_slots kind) fits
  exact ⟨rs, hrs, hjoined.trans (encode_ofMessage kind x).symm,
    (Codec.numbers_increasing kind).sublist hsub⟩

/-- What is written of an event is one list of records, each of a field of its own. Of a payload
that is cut off between two of them, the event is read with the fields of the records behind the cut
at their defaults; one that is cut off anywhere else is refused in the name of its kind. -/
theorem truncated_never_misread (kind : EventKind) (x : Codec.format.Body kind.message)
    (fits : (ofMessage kind x).encodedSize < 2 ^ 64) :
    ∃ rs : List Record, (∀ r ∈ rs, r.WellFormed) ∧ joined rs = (ofMessage kind x).encode ∧
      (∀ rs', (∀ r ∈ rs', r.WellFormed) → joined rs' = (ofMessage kind x).encode → rs' = rs) ∧
      (rs.map (·.number)).Pairwise (· < ·) ∧
      (∀ kept lost, rs = kept ++ lost → decode kind (joined kept) =
        .ok (ofMessage kind ((lost.map (·.number)).foldl kind.clear x))) ∧
      ∀ p, p <+: (ofMessage kind x).encode →
        ((∃ e, decode kind p = .ok e) ↔ ∃ kept, kept <+: rs ∧ p = joined kept) ∧
        ((¬∃ kept, kept <+: rs ∧ p = joined kept) →
          ∃ reason, decode kind p = .error (.decode kind.name reason)) := by
  obtain ⟨rs, hrs, hjoined, hnumbers⟩ := exists_records kind fits
  have hread : (Codec.format.schema kind.message).read (joined rs) = .ok x := by
    rw [hjoined, encode_ofMessage]
    exact (lawful_message kind).read (encodedSize_ofMessage kind x ▸ fits)
  have hkept (kept lost : List Record) (hcut : rs = kept ++ lost) : decode kind (joined kept) =
      .ok (ofMessage kind ((lost.map (·.number)).foldl kind.clear x)) := by
    subst hcut
    exact decode_eq_ok.mpr
      ⟨_, Codec.regular.read_kept (Codec.clears kind) hrs hnumbers.nodup hread, rfl⟩
  have hok (p : Bytes) (hp : p <+: (ofMessage kind x).encode) :
      (∃ e, decode kind p = .ok e) ↔ ∃ kept, kept <+: rs ∧ p = joined kept := by
    constructor
    · rintro ⟨e, he⟩
      obtain ⟨a, ha, -⟩ := decode_eq_ok.mp he
      exact Codec.regular.read_prefix hrs (hjoined ▸ hp) ha
    · rintro ⟨kept, ⟨lost, hcut⟩, rfl⟩
      exact ⟨_, hkept kept lost hcut.symm⟩
  refine ⟨rs, hrs, hjoined, fun rs' hrs' same => ?_, hnumbers, hkept, fun p hp => ⟨hok p hp, ?_⟩⟩
  · exact Wire.joined_inj hrs' hrs (same.trans hjoined.symm)
  · exact fun hcut => decode_error (mt (hok p hp).mp hcut)

/-- Cut off behind the tracking id, and inside of the delivery. -/
theorem truncated_never_misread_handled :
    let e : CargoWasHandled := { trackingId := "A", delivery := some { transportStatus := 1 } }
    (Event.cargoWasHandled e).encodedSize < 2 ^ 64 ∧
      (Event.cargoWasHandled e).encode = [10, 1, 65, 18, 2, 8, 1] ∧
      decode .cargoWasHandled [10, 1, 65] = .ok (.cargoWasHandled { trackingId := "A" }) ∧
      ∃ reason, decode .cargoWasHandled [10, 1, 65, 18, 2, 8] =
        .error (.decode "CargoWasHandled" reason) := by
  intro e
  have fits : (Event.cargoWasHandled e).encodedSize < 2 ^ 64 := by decide +kernel
  have hencode : (Event.cargoWasHandled e).encode = [10, 1, 65, 18, 2, 8, 1] := by decide +kernel
  let id : Record := ⟨1, .delimited, [10], [1, 65]⟩
  let delivery : Record := ⟨2, .delimited, [18], [2, 8, 1]⟩
  have hid : id.WellFormed := ⟨1, by decide⟩
  have hdelivery : delivery.WellFormed := ⟨1, by decide⟩
  obtain ⟨rs, -, -, unique, -, hkept, hcut⟩ := truncated_never_misread .cargoWasHandled e fits
  obtain rfl := unique [id, delivery] (by simpa using ⟨hid, hdelivery⟩) hencode.symm
  refine ⟨fits, hencode, hkept [id] [delivery] rfl, ?_⟩
  refine (hcut [10, 1, 65, 18, 2, 8] (hencode ▸ ⟨[1], rfl⟩)).2 ?_
  rintro ⟨kept, hprefix, hbytes⟩
  have hno : ∀ kept ∈ [id, delivery].inits, [10, 1, 65, 18, 2, 8] ≠ joined kept := by decide
  exact hno kept ((List.mem_inits ..).mpr hprefix) hbytes

end Event
end CargoEvents
