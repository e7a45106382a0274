import CargoEvents.Proofs.Tracking.Views

/-! # How histories grow

Whatever fails, an event adds at most one entry to the history of its cargo, at the end, and
leaves all others as they are. A booking is different: it stores a new view, and with it a
history without entries, also where the cargo was booked before.
-/
namespace CargoEvents.Tracking
open Calendar (Instant)
open Repository

variable {r s : Repository} {id : String} {e : Event} {now : Instant}

/-- The entries in the history of a cargo; none for a cargo without a view. -/
def Repository.history (r : Repository) (id : String) : List HistoryEntry :=
  ((r.cargos.get? id).map (·.events)).getD []

/-- What the event puts at the end of the history of a cargo. -/
def noted (id : String) (now : Instant) (e : Event) : List HistoryEntry :=
  if updated? e = some id then ((report? e).map (·.entry now)).toList else []

theorem history_put (r : Repository) (view : CargoView) (id : String) :
    (r.put view).history id = if id = view.trackingId then view.events else r.history id := by
  rw [history, put_get?, history]
  split <;> rfl

/-! ## Events that fail -/

theorem store_failed {view : CargoView} (h : (store view r).1 ≠ .ok ()) :
    (store view r).2.cargos = r.cargos := by
  unfold store at h ⊢
  split
  · rfl
  · rename_i hs
    rw [hs] at h
    exact (h rfl).elim

theorem change_failed {update : CargoView → CargoView} (h : (change id update r).1 ≠ .ok ()) :
    (change id update r).2.cargos = r.cargos := by
  rw [change, Call.bind_apply] at h ⊢
  cases hf : r.findFaults with
  | cons reason later => simp only [find, hf]
  | nil =>
    cases hv : r.cargos.get? id with
    | none => simp only [find, hf, hv]
    | some view =>
      simp only [find, hf, hv] at h ⊢
      exact store_failed h

theorem cargos_of_failed (h : (handle now e r).1 ≠ .ok ()) :
    (handle now e r).2.cargos = r.cargos := by
  have hcall {c : Call RepositoryError Repository Unit}
      (hc : handle now e = ExceptT.adapt .ofRepository c) : (c r).1 ≠ .ok () := by
    intro hok
    rw [hc, Call.adapt_apply, hok] at h
    exact h rfl
  rcases cases_updated e with ⟨booking, rfl⟩ | ⟨handling, rfl⟩ | ⟨cargo, hcargo⟩
  · exact store_failed (hcall rfl)
  · exact (h rfl).elim
  · have hchange := handle_updated hcargo now
    rw [hchange]
    exact change_failed (hcall hchange)

/-! ## One event -/

theorem booked_of_updated {cargo : String} (h : updated? e = some cargo) : booked? e = none := by
  cases e with
  | cargoDestinationChanged | cargoToRouteAssigned | cargoWasHandled => rfl
  | newCargoBooked | handlingEvent => cases h

/-- A booking starts a history, and any other event that is handled adds what it notes. -/
theorem history_handle (filed : r.Filed) (h : handle now e r = (.ok (), s)) (id : String) :
    s.history id = if booked? e = some id then [] else r.history id ++ noted id now e := by
  rcases cases_updated e with ⟨booking, rfl⟩ | ⟨handling, rfl⟩ | ⟨cargo, hcargo⟩
  · obtain ⟨-, rfl⟩ := handle_booking_eq_ok h
    rw [history_put]
    by_cases hid : id = booking.trackingId
    · have hbooked : booked? (.newCargoBooked booking) = some id := congrArg some hid.symm
      rw [if_pos hbooked]
      exact if_pos hid
    · have hbooked : booked? (.newCargoBooked booking) ≠ some id :=
        fun heq => hid (Option.some.inj heq).symm
      rw [if_neg hbooked]
      exact (if_neg hid).trans (List.append_nil _).symm
  · cases h
    exact (List.append_nil _).symm
  · obtain ⟨view, -, -, hview, rfl⟩ := change_eq_ok (change_of_handle hcargo h)
    have hkey : (updating now e view).trackingId = cargo :=
      (updating_trackingId now e view).trans (filed cargo view hview)
    rw [history_put, hkey, noted, hcargo, booked_of_updated hcargo, if_neg (Option.some_ne_none id).symm]
    by_cases hid : id = cargo
    · subst hid
      rw [if_pos rfl, if_pos rfl, updating_events, history, hview]
      rfl
    · rw [if_neg hid, if_neg fun heq => hid (Option.some.inj heq).symm, List.append_nil]

theorem history_of_failed (h : (handle now e r).1 ≠ .ok ()) (id : String) :
    (handle now e r).2.history id = r.history id := by
  rw [history, cargos_of_failed h, history]

theorem history_of_booked (filed : r.Filed) (h : (handle now e r).1 = .ok ())
    (hb : booked? e = some id) : (handle now e r).2.history id = [] := by
  rw [history_handle filed (Prod.ext h rfl) id, if_pos hb]

theorem history_of_handled (filed : r.Filed) (h : (handle now e r).1 = .ok ())
    (hb : booked? e ≠ some id) :
    (handle now e r).2.history id = r.history id ++ noted id now e := by
  rw [history_handle filed (Prod.ext h rfl) id, if_neg hb]

theorem history_grows (filed : r.Filed) (now : Instant) (hb : booked? e ≠ some id) :
    r.history id <+: (handle now e r).2.history id := by
  by_cases h : (handle now e r).1 = .ok ()
  · rw [history_of_handled filed h hb]
    exact List.prefix_append ..
  · exact ⟨[], (List.append_nil _).trans (history_of_failed h id).symm⟩

/-! ## Many events -/

theorem filed_handle (filed : r.Filed) (now : Instant) (e : Event) : (handle now e r).2.Filed := by
  by_cases h : (handle now e r).1 = .ok ()
  · exact filed_of_handle filed (Prod.ext h rfl)
  · intro id view hv
    rw [cargos_of_failed h] at hv
    exact filed id view hv

theorem filed_after (filed : r.Filed) (events : List (Instant × Event)) :
    (r.after events).Filed := by
  induction events generalizing r with
  | nil => exact filed
  | cons x events ih => exact ih (filed_handle filed x.1 x.2)

theorem history_grows_after (filed : r.Filed) {events : List (Instant × Event)}
    (hb : ∀ x ∈ events, booked? x.2 ≠ some id) : r.history id <+: (r.after events).history id := by
  induction events generalizing r with
  | nil => exact List.prefix_refl _
  | cons x events ih =>
    obtain ⟨hx, hevents⟩ := List.forall_mem_cons.mp hb
    exact (history_grows filed x.1 hx).trans (ih (filed_handle filed x.1 x.2) hevents)

/-- At any point of any run, redeliveries and failures included: the history of a cargo is a
prefix of what it is after the next event, unless the event books this cargo and there was a
history, of which nothing is left then. An event that fails leaves the history; one that is
handled adds its entry, if it reports one on the cargo. So from one booking to the next no entry
is removed or rewritten. -/
theorem history_kept_until_booked (filed : r.Filed) (before : List (Instant × Event))
    (now : Instant) (e : Event) (id : String) :
    let s := r.after before
    let t := (handle now e s).2
    let handled := (handle now e s).1 = .ok ()
    (s.history id <+: t.history id ↔ ¬(handled ∧ booked? e = some id ∧ s.history id ≠ [])) ∧
    (¬handled → t.history id = s.history id) ∧
    (handled → booked? e = some id → t.history id = []) ∧
    (handled → booked? e ≠ some id → t.history id = s.history id ++ noted id now e) ∧
    ∀ later, (∀ x ∈ later, booked? x.2 ≠ some id) →
      s.history id <+: (s.after later).history id := by
  intro s t handled
  have hs : s.Filed := filed_after filed before
  refine ⟨⟨?_, fun hkept => ?_⟩, fun h => history_of_failed h id, history_of_booked hs,
    history_of_handled hs, fun later => history_grows_after hs⟩
  · rintro hprefix ⟨h, hb, hne⟩
    have hempty : t.history id = [] := history_of_booked hs h hb
    rw [hempty] at hprefix
    exact hne (List.prefix_nil.mp hprefix)
  · by_cases hb : booked? e = some id
    · by_cases h : handled
      · have hempty : s.history id = [] := by
          by_contra hne
          exact hkept ⟨h, hb, hne⟩
        rw [hempty]
        exact List.nil_prefix
      · exact ⟨[], (List.append_nil _).trans (history_of_failed h id).symm⟩
    · exact history_grows hs now hb

def bookingOfABC123 : Event := .newCargoBooked (Samples.newCargoBooked "ABC123" "SESTO" "CNHKG")

/-- The loading is redelivered, after an update of a cargo without a view has failed. -/
theorem history_kept_until_booked_redelivered :
    let before := [bookingOfABC123, loading, .cargoWasHandled { trackingId := "XYZ789" }].map
      (Samples.clock, ·)
    let s := ({} : Repository).after before
    ({} : Repository).Filed ∧ s.history "ABC123" ≠ [] ∧
    (handle Samples.clock loading s).2.history "ABC123" =
      s.history "ABC123" ++ noted "ABC123" Samples.clock loading := by
  intro before s
  have filed : ({} : Repository).Filed := sound_empty.filed
  obtain ⟨-, -, -, hadds, -⟩ :=
    history_kept_until_booked filed before Samples.clock loading "ABC123"
  exact ⟨filed, by decide +kernel, hadds rfl (Option.some_ne_none _).symm⟩

/-- A booking that is redelivered takes away what the history had. -/
theorem rebooked_without_history :
    let s := ({} : Repository).after [(Samples.clock, bookingOfABC123), (Samples.clock, loading)]
    let t := (handle Samples.clock bookingOfABC123 s).2
    s.history "ABC123" = [{
      description := "Loaded onto voyage 0400S in SESTO, at 2025-01-01T00:00:00Z."
      expected := false }] ∧
    t.history "ABC123" = [] ∧ ¬s.history "ABC123" <+: t.history "ABC123" := by
  decide +kernel

end CargoEvents.Tracking
