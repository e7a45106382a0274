import CargoEvents.Proofs.Event.RoundTrip
import CargoEvents.Proofs.Wire.Skew

/-! # Events of newer and older writers

The message types of all events are one regular format: every field can be set alone, and its
reader takes one value and looks no further. So payloads may carry fields that are unknown
here, in any order, and may lack others.
-/
namespace CargoEvents
open Wire (Record joined Holds without depthLimit Field Format)

namespace Codec

inductive Message
  | timestamp | handlingActivity | handlingEvent | leg | itinerary | delivery | newCargoBooked
  | cargoDestinationChanged | cargoToRouteAssigned | cargoWasHandled
  deriving DecidableEq, Repr

def format : Format Message where
  Body
    | .timestamp => Timestamp
    | .handlingActivity => HandlingActivity
    | .handlingEvent => HandlingEvent
    | .leg => Leg
    | .itinerary => Itinerary
    | .delivery => Delivery
    | .newCargoBooked => NewCargoBooked
    | .cargoDestinationChanged => CargoDestinationChanged
    | .cargoToRouteAssigned => CargoToRouteAssigned
    | .cargoWasHandled => CargoWasHandled
  schema
    | .timestamp => timestamp
    | .handlingActivity => handlingActivity
    | .handlingEvent => handlingEvent
    | .leg => leg
    | .itinerary => itinerary
    | .delivery => delivery
    | .newCargoBooked => newCargoBooked
    | .cargoDestinationChanged => cargoDestinationChanged
    | .cargoToRouteAssigned => cargoToRouteAssigned
    | .cargoWasHandled => cargoWasHandled
  nested
    | .handlingEvent, 2 => some (.one .handlingActivity)
    | .leg, 4 => some (.one .timestamp)
    | .leg, 5 => some (.one .timestamp)
    | .itinerary, 1 => some (.many .leg)
    | .delivery, 2 => some (.one .handlingActivity)
    | .delivery, 3 => some (.one .handlingEvent)
    | .delivery, 7 => some (.one .timestamp)
    | .newCargoBooked, 4 => some (.one .timestamp)
    | .newCargoBooked, 5 => some (.one .delivery)
    | .cargoToRouteAssigned, 2 => some (.one .timestamp)
    | .cargoToRouteAssigned, 3 => some (.one .itinerary)
    | .cargoToRouteAssigned, 4 => some (.one .delivery)
    | .cargoWasHandled, 2 => some (.one .delivery)
    | _, _ => none

/-! ## The format is regular -/

theorem describes : ∀ m, format.Describes m (format.schema m).slots := by
  have text := Wire.Field.local_text
  have int32 : ∀ budget, Wire.Field.int32.Local budget := Wire.Field.local_number _ _ _
  have int64 : ∀ budget, Wire.Field.int64.Local budget := Wire.Field.local_number _ _ _
  have bool : ∀ budget, Wire.Field.bool.Local budget := Wire.Field.local_number _ _ _
  refine fun
    | .timestamp => .scalar int64 rfl ?_ <| .scalar int32 rfl ?_ .nil
    | .handlingActivity =>
      .scalar int32 rfl ?_ <| .scalar text rfl ?_ <| .scalar text rfl ?_ .nil
    | .handlingEvent => .scalar text rfl ?_ <| .one Message.handlingActivity rfl ?_ .nil
    | .leg =>
      .scalar text rfl ?_ <| .scalar text rfl ?_ <| .scalar text rfl ?_ <|
      .one Message.timestamp rfl ?_ <| .one Message.timestamp rfl ?_ .nil
    | .itinerary => .many Message.leg rfl ?_ .nil
    | .delivery =>
      .scalar int32 rfl ?_ <| .one Message.handlingActivity rfl ?_ <|
      .one Message.handlingEvent rfl ?_ <| .scalar bool rfl ?_ <| .scalar text rfl ?_ <|
      .scalar text rfl ?_ <| .one Message.timestamp rfl ?_ <| .scalar bool rfl ?_ <|
      .scalar bool rfl ?_ .nil
    | .newCargoBooked =>
      .scalar text rfl ?_ <| .scalar text rfl ?_ <| .scalar text rfl ?_ <|
      .one Message.timestamp rfl ?_ <| .one Message.delivery rfl ?_ .nil
    | .cargoDestinationChanged => .scalar text rfl ?_ <| .scalar text rfl ?_ .nil
    | .cargoToRouteAssigned =>
      .scalar text rfl ?_ <| .one Message.timestamp rfl ?_ <| .one Message.itinerary rfl ?_ <|
      .one Message.delivery rfl ?_ .nil
    | .cargoWasHandled => .scalar text rfl ?_ <| .one Message.delivery rfl ?_ .nil
  -- Fields are set by record update, so each law holds by computation.
  all_goals
    refine ⟨⟨by decide, rfl, fun _ _ => rfl, fun _ _ _ => rfl, fun _ => rfl, rfl⟩, ?_⟩
    repeat first
      | exact .nil
      | refine .own rfl ?_
      | refine .other (fun _ _ => rfl) (fun _ _ _ => rfl) ?_

theorem regular : format.Regular := by
  apply Format.regular_of_describes describes
  intro m number missing
  simp only [format]
  split
  all_goals first | rfl | cases missing

end Codec

def EventKind.message : EventKind → Codec.Message
  | .newCargoBooked => .newCargoBooked
  | .cargoDestinationChanged => .cargoDestinationChanged
  | .cargoToRouteAssigned => .cargoToRouteAssigned
  | .cargoWasHandled => .cargoWasHandled
  | .handlingEvent => .handlingEvent

namespace Event

/-- The event of a kind that a message of the kind's type is. -/
def ofMessage : (kind : EventKind) → Codec.format.Body kind.message → Event
  | .newCargoBooked, e => .newCargoBooked e
  | .cargoDestinationChanged, e => .cargoDestinationChanged e
  | .cargoToRouteAssigned, e => .cargoToRouteAssigned e
  | .cargoWasHandled, e => .cargoWasHandled e
  | .handlingEvent, e => .handlingEvent e

theorem encode_ofMessage (kind : EventKind) (a : Codec.format.Body kind.message) :
    (ofMessage kind a).encode = (Codec.format.schema kind.message).write a := by
  cases kind <;> rfl

theorem encodedSize_ofMessage (kind : EventKind) (a : Codec.format.Body kind.message) :
    (ofMessage kind a).encodedSize = (Codec.format.schema kind.message).size a := by
  cases kind <;> rfl

theorem lawful_message : (kind : EventKind) →
    (Codec.format.schema kind.message).Lawful depthLimit
  | .newCargoBooked => Codec.lawful_newCargoBooked 97
  | .cargoDestinationChanged => Codec.lawful_cargoDestinationChanged 100
  | .cargoToRouteAssigned => Codec.lawful_cargoToRouteAssigned 97
  | .cargoWasHandled => Codec.lawful_cargoWasHandled 97
  | .handlingEvent => Codec.lawful_handlingEvent 99

theorem decode_eq_ok {kind : EventKind} {bytes : Wire.Bytes} {e : Event} :
    decode kind bytes = .ok e ↔ ∃ a,
      (Codec.format.schema kind.message).read bytes = .ok a ∧ e = ofMessage kind a := by
  have lift {α : Type} {read : Except Wire.Fault α} {f : α → Event}
      {refused : Wire.Fault → CodecError} :
      (read.map f).mapError refused = .ok e ↔ ∃ a, read = .ok a ∧ e = f a := by
    cases read with
    | error fault => simp [Except.map, Except.mapError]
    | ok a => simp [Except.map, Except.mapError, eq_comm]
  cases kind <;> exact lift

/-- A payload that is accepted is one list of records. Putting in records of fields that are
unknown here and exchanging neighbours of different fields, both at any depth and any number
of times, leaves the event as it is. Leaving out all records of one field, again at any depth,
yields the event with this field at its default; a message in it that several records hold
parts of is left without the field only if none of them has it. -/
theorem skew_harmless {kind : EventKind} {bytes : Wire.Bytes} {e : Event}
    (accepted : decode kind bytes = .ok e) :
    ∃ rs : List Record, (∀ r ∈ rs, r.WellFormed) ∧ joined rs = bytes ∧
      (∀ rs', (∀ r ∈ rs', r.WellFormed) → joined rs' = bytes → rs' = rs) ∧
      (∀ rs', Relation.ReflTransGen (Codec.format.Skew kind.message depthLimit) rs rs' →
        decode kind (joined rs') = .ok e) ∧
      ∃ a, e = ofMessage kind a ∧ ∀ path rs', Codec.format.Pruned kind.message path rs rs' →
        (∃ f, Codec.format.Clears kind.message path f) ∧
        ∀ f, Codec.format.Clears kind.message path f →
          decode kind (joined rs') = .ok (ofMessage kind (f a)) := by
  have regular := Codec.regular
  obtain ⟨a, hread, rfl⟩ := decode_eq_ok.mp accepted
  obtain ⟨rs, hrs, rfl, -⟩ := (Wire.Schema.read_eq_ok (regular.local _ _)).mp hread
  refine ⟨rs, hrs, rfl, fun rs' hrs' same => Wire.joined_inj hrs' hrs same, ?_, a, rfl, ?_⟩
  · intro rs' changes
    exact decode_eq_ok.mpr ⟨a, regular.read_skewed hrs changes hread, rfl⟩
  · intro path rs' pruned
    refine ⟨pruned.clears regular, fun f clears => ?_⟩
    exact decode_eq_ok.mpr ⟨f a, regular.read_pruned hrs pruned clears hread, rfl⟩

/-- A booking of a newer writer, which tells more about the delivery and tells it first, and one
of an older writer, which knows no status. -/
theorem skew_harmless_booking :
    let id : Record := ⟨1, .delimited, [10], [1, 65]⟩
    let delivery (value : Wire.Bytes) : Record := ⟨5, .delimited, [42], value⟩
    let booking : Event := .newCargoBooked
      { trackingId := "A", delivery := some { transportStatus := 1 } }
    decode .newCargoBooked (joined [id, delivery [2, 8, 1]]) = .ok booking ∧
      decode .newCargoBooked (joined [delivery [6, 8, 1, 123, 8, 5, 124], id]) = .ok booking ∧
      decode .newCargoBooked (joined [id, delivery [0]]) =
        .ok (.newCargoBooked { trackingId := "A", delivery := some {} }) := by
  intro id delivery booking
  let status : Record := ⟨1, .varint, [8], [1]⟩
  let group : Record := ⟨15, .groupStart, [123], [8, 5, 124]⟩
  have accepted : decode .newCargoBooked (joined [id, delivery [2, 8, 1]]) = .ok booking := by
    decide +kernel
  have hid : id.WellFormed := ⟨1, by decide⟩
  have hdelivery : (delivery [2, 8, 1]).WellFormed := ⟨1, by decide⟩
  have hstatus : status.WellFormed := ⟨1, by decide⟩
  have hgroup : group.Within 99 := by decide
  have holds : Holds [2, 8, 1] [status] :=
    Wire.holds_of_readNumber (by simpa using hstatus) (by decide)
  have holdsMore : Holds [6, 8, 1, 123, 8, 5, 124] [status, group] :=
    Wire.holds_of_readNumber (by simpa using ⟨hstatus, 99, hgroup⟩) (by decide)
  have holdsNone : Holds [0] [] := Wire.holds_of_readNumber (by simp) (by decide)
  obtain ⟨rs, -, -, unique, skewed, a, ha, pruned⟩ := skew_harmless accepted
  have hrs := unique [id, delivery [2, 8, 1]] (by simpa using ⟨hid, hdelivery⟩) rfl
  subst hrs
  refine ⟨accepted, ?_, ?_⟩
  · apply skewed
    have hinsert : Codec.format.Skew .delivery 99 ([status] ++ []) ([status] ++ group :: []) :=
      .insert rfl hgroup
    have hinside : Codec.format.Skew .newCargoBooked 100 ([id] ++ delivery [2, 8, 1] :: [])
        ([id] ++ delivery [6, 8, 1, 123, 8, 5, 124] :: []) :=
      .inside rfl rfl holds holdsMore hinsert
    have hswap : Codec.format.Skew .newCargoBooked 100
        ([] ++ id :: delivery [6, 8, 1, 123, 8, 5, 124] :: [])
        ([] ++ delivery [6, 8, 1, 123, 8, 5, 124] :: id :: []) :=
      .swap (by decide)
    exact .tail (.single hinside) hswap
  · have hstatus : Codec.delivery.Place Field.int32 1 "transport_status" (·.transportStatus)
        ({ · with transportStatus := · }) := by
      refine ⟨⟨by decide, rfl, fun _ _ => rfl, fun _ _ _ => rfl, fun _ => rfl, rfl⟩, ?_⟩
      refine .own rfl ?_
      repeat first
        | exact .nil
        | refine .other (fun _ _ => rfl) (fun _ _ _ => rfl) ?_
    have hdelivery : Codec.newCargoBooked.Place (.optional Codec.delivery) 5 "delivery"
        (·.delivery) ({ · with delivery := · }) := by
      refine ⟨⟨by decide, rfl, fun _ _ => rfl, fun _ _ _ => rfl, fun _ => rfl, rfl⟩, ?_⟩
      repeat first
        | exact .own rfl .nil
        | refine .other (fun _ _ => rfl) (fun _ _ _ => rfl) ?_
    have hrefilled : Format.Refilled 5 [id, delivery [2, 8, 1]] [[status]] [[]]
        [id, delivery [0]] :=
      .other (by decide) (.own rfl rfl holds holdsNone .done)
    have hpruned : Codec.format.Pruned .newCargoBooked (.inside 5 (.here 1))
        [id, delivery [2, 8, 1]] [id, delivery [0]] :=
      .inside rfl hrefilled (.here : Codec.format.Pruned .delivery (.here 1) [status] _)
    have hclears : Codec.format.Clears .newCargoBooked (.inside 5 (.here 1)) _ :=
      .inside rfl hdelivery (.here hstatus)
    have hdecode := (pruned _ _ hpruned).2 _ hclears
    injection ha with ha
    subst ha
    exact hdecode

/-- Two records hold parts of the delivery. The status that the second no longer has is still
the one of the first, not the default. -/
theorem status_of_other_record :
    let delivery (value : Wire.Bytes) : Record := ⟨5, .delimited, [42], value⟩
    let status : Record := ⟨1, .varint, [8], [2]⟩
    Holds [2, 8, 2] [status] ∧ Holds [0] (without 1 [status]) ∧
      decode .newCargoBooked (joined [delivery [2, 8, 1], delivery [2, 8, 2]]) =
        .ok (.newCargoBooked { delivery := some { transportStatus := 2 } }) ∧
      decode .newCargoBooked (joined [delivery [2, 8, 1], delivery [0]]) =
        .ok (.newCargoBooked { delivery := some { transportStatus := 1 } }) ∧
      decode .newCargoBooked (joined [delivery [2, 8, 1], delivery [0]]) ≠
        .ok (.newCargoBooked { delivery := some {} }) := by
  intro delivery status
  have hstatus : status.WellFormed := ⟨1, by decide⟩
  refine ⟨Wire.holds_of_readNumber (by simpa using hstatus) (by decide),
    Wire.holds_of_readNumber (by simp [without, status]) (by decide), ?_, ?_, ?_⟩
  · decide +kernel
  · decide +kernel
  · decide +kernel

end Event
end CargoEvents
