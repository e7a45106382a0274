import CargoEvents.Proofs.Tracking.Redelivery

/-! # What a view shows

From its booking on, the view of a cargo is a fold over the events about this cargo, and no
other event touches it. Each field shows what the last event that writes it has brought;
the history shows one entry for each event that reports one.
-/
namespace CargoEvents.Tracking
open Calendar (Instant)

variable {r : Repository} {id : String} {v : CargoView}

/-- The repository after these events, each heard of at its time. An event that fails leaves
behind what it leaves behind. -/
def Repository.after (r : Repository) (events : List (Instant × Event)) : Repository :=
  events.foldl (fun r x => (handle x.1 x.2 r).2) r

/-- The events that change the view of the cargo. -/
def about (id : String) (events : List (Instant × Event)) : List (Instant × Event) :=
  events.filter fun x => updated? x.2 == some id

def CargoView.after (v : CargoView) (events : List (Instant × Event)) : CargoView :=
  events.foldl (fun v x => updating x.1 x.2 v) v

/-! ## One view among others -/

open Repository

theorem sound_put (h : r.Sound) (view : CargoView) : (r.put view).Sound :=
  ⟨h.finds, h.stores, Filed.put h.filed view⟩

theorem handle_sound (h : r.Sound) (now : Instant) (e : Event) :
    (∃ booking, e = .newCargoBooked booking ∧ handle now e r = (.ok (), r.put (.booked booking))) ∨
    (∃ handling, e = .handlingEvent handling ∧ handle now e r = (.ok (), r)) ∨
    (∃ cargo w, updated? e = some cargo ∧ r.cargos.get? cargo = some w ∧
      handle now e r = (.ok (), r.put (updating now e w))) ∨
    ∃ cargo, updated? e = some cargo ∧ r.cargos.get? cargo = none ∧
      handle now e r = (.error (.notFound cargo), r) := by
  rcases cases_updated e with ⟨booking, rfl⟩ | ⟨handling, rfl⟩ | ⟨cargo, hcargo⟩
  · exact .inl ⟨booking, rfl, Call.adapt_eq_ok_iff.mpr (store_eq h.stores)⟩
  · exact .inr (.inl ⟨handling, rfl, rfl⟩)
  · refine .inr (.inr ?_)
    cases hw : r.cargos.get? cargo with
    | none => exact .inr ⟨cargo, hcargo, hw, h.handle_unknown now hcargo (by simp [Table.contains, hw])⟩
    | some w =>
      refine .inl ⟨cargo, w, hcargo, hw, ?_⟩
      rw [handle_updated hcargo]
      exact Call.adapt_eq_ok_iff.mpr (change_eq h.finds h.stores hw (updating now e))

theorem view_handle (h : r.Sound) (hv : r.cargos.get? id = some v) (now : Instant) {e : Event}
    (hb : booked? e ≠ some id) :
    (handle now e r).2.Sound ∧
    (handle now e r).2.cargos.get? id =
      some (if updated? e = some id then updating now e v else v) ∧
    (updated? e = some id → (handle now e r).1 = .ok ()) := by
  rcases handle_sound h now e with ⟨booking, rfl, hr⟩ | ⟨handling, rfl, hr⟩ |
    ⟨cargo, w, hcargo, hw, hr⟩ | ⟨cargo, hcargo, hw, hr⟩
  · have hne : id ≠ (CargoView.booked booking).trackingId :=
      fun hid => hb (congrArg some hid.symm)
    rw [hr]
    refine ⟨sound_put h _, ?_, fun _ => rfl⟩
    rw [put_get?, if_neg hne, hv]
    rfl
  · rw [hr]
    exact ⟨h, hv, fun _ => rfl⟩
  · have hkey : (updating now e w).trackingId = cargo :=
      (updating_trackingId now e w).trans (h.filed cargo w hw)
    rw [hr]
    refine ⟨sound_put h _, ?_, fun _ => rfl⟩
    rw [put_get?, hkey, hcargo]
    by_cases hid : id = cargo
    · subst hid
      obtain rfl : w = v := Option.some.inj (hw.symm.trans hv)
      rw [if_pos rfl, if_pos rfl]
    · rw [if_neg hid, if_neg fun heq => hid (Option.some.inj heq).symm, hv]
  · have hne : updated? e ≠ some id := by
      rw [hcargo]
      rintro ⟨⟩
      cases hw.symm.trans hv
    rw [hr]
    exact ⟨h, by rw [if_neg hne, hv], fun hid => (hne hid).elim⟩

/-- The view of a cargo that is not booked again is a fold over the events about it. -/
theorem view_after (h : r.Sound) (hv : r.cargos.get? id = some v)
    {events : List (Instant × Event)} (hb : ∀ x ∈ events, booked? x.2 ≠ some id) :
    (r.after events).Sound ∧
      (r.after events).cargos.get? id = some (v.after (about id events)) := by
  induction events generalizing r v with
  | nil => exact ⟨h, hv⟩
  | cons x events ih =>
    obtain ⟨hx, hevents⟩ := List.forall_mem_cons.mp hb
    obtain ⟨hsound, hview, -⟩ := view_handle h hv x.1 hx
    obtain ⟨hsound', hview'⟩ := ih hsound hview hevents
    refine ⟨hsound', hview'.trans ?_⟩
    by_cases hid : updated? x.2 = some id
    · simp [about, CargoView.after, hid]
    · simp [about, CargoView.after, hid]

/-! ## Who writes a field -/

section Writing
variable {α β : Type} {field : CargoView → α}

/-- What the last of the events that bring anything has brought. -/
def lastOf (brought? : Event → Option α) (events : List (Instant × Event)) : Option α :=
  (events.filterMap fun x => brought? x.2).getLast?

/-- A field that events bring up to date or leave shows what was brought last. -/
theorem last_written {brought? : Event → Option α}
    (hw : ∀ now e v, field (updating now e v) = (brought? e).getD (field v))
    (events : List (Instant × Event)) (v : CargoView) :
    field (v.after events) = (lastOf brought? events).getD (field v) := by
  induction events generalizing v with
  | nil => rfl
  | cons x events ih =>
    refine (ih (updating x.1 x.2 v)).trans ?_
    rw [hw, lastOf, lastOf, List.filterMap_cons]
    cases brought? x.2 with
    | none => rfl
    | some a => simp [List.getLast?_cons]

theorem last_shown {brought? : Event → Option β} {shown : β → α}
    (hw : ∀ now e v, field (updating now e v) = ((brought? e).map shown).getD (field v))
    (events : List (Instant × Event)) (v : CargoView) :
    field (v.after events) = ((lastOf brought? events).map shown).getD (field v) := by
  rw [last_written hw, lastOf, lastOf, ← List.getLast?_map, List.map_filterMap]

theorem never_written (hw : ∀ now e v, field (updating now e v) = field v)
    (events : List (Instant × Event)) (v : CargoView) : field (v.after events) = field v := by
  induction events generalizing v with
  | nil => rfl
  | cons x events ih => exact (ih _).trans (hw ..)

end Writing

def destination? : Event → Option String
  | .cargoDestinationChanged e => some e.destination
  | _ => none

/-- The time of arrival that an event brings; it may be none, or out of range. -/
def eta? : Event → Option (Option Timestamp)
  | .cargoToRouteAssigned e => some e.eta
  | .cargoWasHandled e => some (e.delivery.getD {}).eta
  | _ => none

/-- What a handling says of the delivery. Without one it says what the default one says. -/
def delivery? : Event → Option Delivery
  | .cargoWasHandled e => some (e.delivery.getD {})
  | _ => none

/-- How the status of a delivery shows. -/
def statusOf (d : Delivery) : String :=
  ((TransportStatus.ofCode? d.transportStatus).getD .unknown).name

/-- An event puts what it reports at the end of the history, if it reports anything. -/
theorem updating_events (now : Instant) (e : Event) (v : CargoView) :
    (updating now e v).events = v.events ++ ((report? e).map (·.entry now)).toList := by
  cases e with
  | cargoWasHandled e =>
    simp only [updating, CargoView.withHandling, report?]
    cases (e.delivery.getD {}).lastEvent <;> rfl
  | newCargoBooked | cargoDestinationChanged | cargoToRouteAssigned | handlingEvent =>
    exact (List.append_nil _).symm

theorem events_after (events : List (Instant × Event)) (v : CargoView) :
    (v.after events).events =
      v.events ++ events.filterMap fun x => (report? x.2).map (·.entry x.1) := by
  induction events generalizing v with
  | nil => exact (List.append_nil _).symm
  | cons x events ih =>
    refine (ih (updating x.1 x.2 v)).trans ?_
    rw [updating_events, List.append_assoc, List.filterMap_cons]
    cases (report? x.2).map (·.entry x.1) <;> rfl

/-- From a booking on, as long as the cargo is not booked again and whatever happens to others:
the events about the cargo are handled with success, and each field of its view shows what the
last event that writes it has brought, or what the booking says if there was none. The history
has one entry for each report, in their order. -/
theorem last_writer_shown (h : r.Sound) (now : Instant) (booking : NewCargoBooked)
    (events : List (Instant × Event))
    (hevents : ∀ x ∈ events, booked? x.2 ≠ some booking.trackingId) :
    let start := (handle now (.newCargoBooked booking) r).2
    let own := about booking.trackingId events
    (handle now (.newCargoBooked booking) r).1 = .ok () ∧
    (∀ before x, before ++ [x] <+: events → updated? x.2 = some booking.trackingId →
      (handle x.1 x.2 (start.after before)).1 = .ok ()) ∧
    ∃ view, find booking.trackingId (start.after events) = (.ok view, start.after events) ∧
      view.trackingId = booking.trackingId ∧
      view.origin = booking.origin ∧
      view.arrivalDeadline = booking.arrivalDeadline.bind Instant.ofTimestamp? ∧
      view.destination = (lastOf destination? own).getD booking.destination ∧
      view.eta = ((lastOf eta? own).map (·.bind Instant.ofTimestamp?)).getD none ∧
      view.statusText = ((lastOf delivery? own).map statusOf).getD "NotReceived" ∧
      view.nextExpectedActivity = ((lastOf delivery? own).map fun d =>
        nextExpectedActivity d.nextExpectedActivity).getD "" ∧
      view.events = own.filterMap fun x => (report? x.2).map (·.entry x.1) := by
  intro start own
  have hbooked : handle now (.newCargoBooked booking) r = (.ok (), r.put (.booked booking)) :=
    Call.adapt_eq_ok_iff.mpr (store_eq h.stores)
  have hstart : start = r.put (.booked booking) := congrArg Prod.snd hbooked
  have hsound : start.Sound := hstart ▸ sound_put h _
  have hview : start.cargos.get? booking.trackingId = some (.booked booking) := by
    rw [hstart, put_get?]
    exact if_pos rfl
  refine ⟨congrArg Prod.fst hbooked, fun before x hpre hx => ?_, ?_⟩
  · have hall (y : Instant × Event) (hy : y ∈ before ++ [x]) :
        booked? y.2 ≠ some booking.trackingId := hevents y (hpre.subset hy)
    obtain ⟨hsound', hview'⟩ := view_after hsound hview
      fun y hy => hall y (List.mem_append_left _ hy)
    exact (view_handle hsound' hview' x.1 (hall x (by simp))).2.2 hx
  · obtain ⟨hsound', hview'⟩ := view_after hsound hview hevents
    refine ⟨(CargoView.booked booking).after own, ?_, ?_⟩
    · simp only [find, hsound'.finds, hview']
      rfl
    · refine ⟨never_written updating_trackingId own _, never_written ?_ own _,
        never_written ?_ own _, last_written ?_ own _, last_shown ?_ own _, last_shown ?_ own _,
        last_shown ?_ own _, events_after own _⟩
      all_goals
        intro now e v
        cases e <;> rfl

/-- What happens to `ABC123` after its booking, and to other cargos meanwhile. -/
def interleaved : List (Instant × Event) :=
  [.cargoWasHandled { trackingId := "XYZ789" },
    .cargoDestinationChanged { trackingId := "ABC123", destination := "DEHAM" },
    .newCargoBooked { trackingId := "XYZ789", origin := "SESTO", destination := "CNHKG" },
    .cargoWasHandled (Samples.cargoWasHandled "ABC123" .onboardCarrier "SESTO" "0400S" none),
    .cargoDestinationChanged { trackingId := "XYZ789", destination := "AUMEL" },
    .cargoDestinationChanged { trackingId := "ABC123", destination := "USNYC" },
    .cargoWasHandled { trackingId := "ABC123", delivery := some { transportStatus := 17 } },
    .cargoToRouteAssigned { trackingId := "ABC123", eta := some { nanos := -1 } }].map
      (Samples.clock, ·)

/-- A status without a name, a time of arrival out of range, and one entry for two handlings. -/
theorem last_writer_shown_interleaved :
    let booking : NewCargoBooked := Samples.newCargoBooked "ABC123" "SESTO" "CNHKG"
    let start := (handle Samples.clock (.newCargoBooked booking) {}).2
    (∀ x ∈ interleaved, booked? x.2 ≠ some booking.trackingId) ∧
    ∃ view, find "ABC123" (start.after interleaved) = (.ok view, start.after interleaved) ∧
      view.destination = "USNYC" ∧ view.eta = none ∧ view.statusText = "Unknown" ∧
      view.nextExpectedActivity = nothingExpected ∧ view.events.length = 1 := by
  intro booking start
  have hothers : ∀ x ∈ interleaved, booked? x.2 ≠ some booking.trackingId := by
    simp [interleaved, booked?, booking, Samples.newCargoBooked]
  obtain ⟨-, -, view, hfind, -, -, -, hdestination, heta, hstatus, hnext, hhistory⟩ :=
    last_writer_shown sound_empty Samples.clock booking interleaved hothers
  refine ⟨hothers, view, hfind, hdestination.trans ?_, heta.trans ?_, hstatus.trans ?_,
    hnext.trans ?_, (congrArg List.length hhistory).trans ?_⟩
  all_goals decide +kernel

end CargoEvents.Tracking
