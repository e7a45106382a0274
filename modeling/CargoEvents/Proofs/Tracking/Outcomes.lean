import CargoEvents.Proofs.Tracking.History

/-! # What becomes of an event

An event that fails leaves all views as they were, so that it meets the same views when it is
redelivered; one that is handled changes the view of its own cargo and no other. This holds in
every repository that can be reached, whichever of its look-ups and writes fail, since views never
stand under other ids than their own.
-/
namespace CargoEvents.Tracking
open Calendar (Instant)
open Repository

/-- The cargo that an event is about. Events of the kind that nobody handles are about none. -/
def cargo? : Event → Option String
  | .newCargoBooked e => some e.trackingId
  | .cargoDestinationChanged e => some e.trackingId
  | .cargoToRouteAssigned e => some e.trackingId
  | .cargoWasHandled e => some e.trackingId
  | .handlingEvent _ => none

/-- The view of its cargo once an event is handled. Only a booking needs none before it. -/
def renewed (now : Instant) (e : Event) (before : Option CargoView) : Option CargoView :=
  match e with
  | .newCargoBooked booking => some (.booked booking)
  | _ => before.map (updating now e)

variable {r : Repository} {id : String} {e : Event} {now : Instant}

theorem cargo?_isSome (e : Event) : (cargo? e).isSome ↔ e.kind ∈ trackedKinds := by
  cases e <;> simp [cargo?, Event.kind, trackedKinds]

theorem cargo?_of_updated (h : updated? e = some id) : cargo? e = some id := by
  cases e <;> first | exact h | cases h

theorem renewed_of_updated (h : updated? e = some id) (now : Instant) (before : Option CargoView) :
    renewed now e before = before.map (updating now e) := by
  cases e <;> first | rfl | cases h

theorem cases_cargo (h : cargo? e = some id) :
    (∃ booking, e = .newCargoBooked booking ∧ booking.trackingId = id) ∨ updated? e = some id := by
  cases e with
  | newCargoBooked booking => exact .inl ⟨booking, rfl, Option.some.inj h⟩
  | cargoDestinationChanged | cargoToRouteAssigned | cargoWasHandled => exact .inr h
  | handlingEvent => cases h

/-! ## Ways to end -/

/-- The look-up that an event about the cargo may need has succeeded. -/
def Repository.Passes (r : Repository) (e : Event) (id : String) : Prop :=
  updated? e = some id → r.findFaults = [] ∧ r.cargos.contains id

/-- All ways in which an event about the cargo can end. -/
inductive Outcome (now : Instant) (e : Event) (id : String) (r : Repository) :
    Except HandlerError Unit × Repository → Prop
  | unreadable {reason : String} {later : List String} (hu : updated? e = some id)
      (hf : r.findFaults = reason :: later) :
      Outcome now e id r (.error (.repository reason), { r with findFaults := later })
  | unknown (hu : updated? e = some id) (hf : r.findFaults = [])
      (hv : r.cargos.get? id = none) : Outcome now e id r (.error (.notFound id), r)
  | unwritable {reason : String} {later : List String} (hp : r.Passes e id)
      (hs : r.storeFaults = reason :: later) :
      Outcome now e id r (.error (.repository reason), { r with storeFaults := later })
  | handled {view : CargoView} (hp : r.Passes e id) (hs : r.storeFaults = [])
      (hv : renewed now e (r.cargos.get? id) = some view) :
      Outcome now e id r (.ok (), r.put view)

theorem outcome_of_store {view : CargoView} (hp : r.Passes e id)
    (hv : renewed now e (r.cargos.get? id) = some view) :
    Outcome now e id r
      ((store view r).1.mapError HandlerError.ofRepository, (store view r).2) := by
  cases hs : r.storeFaults with
  | cons reason later =>
    simp only [store, hs]
    exact .unwritable hp hs
  | nil =>
    rw [store_eq hs]
    exact .handled hp hs hv

theorem handle_outcome (h : cargo? e = some id) (now : Instant) (r : Repository) :
    Outcome now e id r (handle now e r) := by
  rcases cases_cargo h with ⟨booking, rfl, -⟩ | hu
  · exact outcome_of_store (fun hu => by cases hu) rfl
  · rw [handle_updated hu, Call.adapt_apply, change, Call.bind_apply]
    cases hf : r.findFaults with
    | cons reason later =>
      simp only [find, hf]
      exact .unreadable hu hf
    | nil =>
      cases hv : r.cargos.get? id with
      | none =>
        simp only [find, hf, hv]
        exact .unknown hu hf hv
      | some view =>
        simp only [find, hf, hv]
        refine outcome_of_store (fun _ => ⟨hf, by simp [Table.contains, hv]⟩) ?_
        rw [renewed_of_updated hu, hv]
        rfl

theorem Repository.Filed.renewed (filed : r.Filed) (h : cargo? e = some id) {view : CargoView}
    (hv : Tracking.renewed now e (r.cargos.get? id) = some view) : view.trackingId = id := by
  rcases cases_cargo h with ⟨booking, rfl, rfl⟩ | hu
  · obtain rfl := Option.some.inj hv
    rfl
  · rw [renewed_of_updated hu] at hv
    obtain ⟨old, hold, rfl⟩ := Option.map_eq_some_iff.mp hv
    exact (updating_trackingId now e old).trans (filed id old hold)

/-! ## Repositories that can be reached -/

/-- What can be done to a repository. A failure that is lined up is met by the next look-up, or by
the next write, that comes. -/
inductive Deed
  | store (view : CargoView)
  | find (id : String)
  | handle (now : Instant) (e : Event)
  | failFind (reason : String)
  | failStore (reason : String)

def Repository.perform (r : Repository) : Deed → Repository
  | .store view => (store view r).2
  | .find id => (find id r).2
  | .handle now e => (handle now e r).2
  | .failFind reason => r.failFind reason
  | .failStore reason => r.failStore reason

def Repository.reached (deeds : List Deed) : Repository := deeds.foldl Repository.perform {}

theorem Repository.Filed.congr (filed : r.Filed) {s : Repository} (h : s.cargos = r.cargos) :
    s.Filed := fun id view hv => filed id view (h ▸ hv)

theorem cargos_find (id : String) (r : Repository) : (find id r).2.cargos = r.cargos := by
  unfold find
  split
  · rfl
  · split <;> rfl

theorem Repository.Filed.perform (filed : r.Filed) (deed : Deed) : (r.perform deed).Filed := by
  cases deed with
  | store view =>
    cases hs : r.storeFaults with
    | cons reason later =>
      have hfailed : (store view r).1 ≠ .ok () := by simp [Repository.store, hs]
      exact filed.congr (store_failed hfailed)
    | nil =>
      rw [Repository.perform, store_eq hs]
      exact filed.put view
  | find id => exact filed.congr (cargos_find id r)
  | handle now e => exact filed_handle filed now e
  | failFind | failStore => exact filed

theorem filed_reached (deeds : List Deed) : (reached deeds).Filed := by
  have hrun (r : Repository) (filed : r.Filed) : (deeds.foldl Repository.perform r).Filed := by
    induction deeds generalizing r with
    | nil => exact filed
    | cons deed deeds ih => exact ih (r.perform deed) (filed.perform deed)
  exact hrun {} sound_empty.filed

/-! ## Listing views -/

theorem Repository.Filed.ids_findAll (filed : r.Filed) :
    r.findAll.map (·.trackingId) = r.cargos.keys := by
  rw [findAll, Table.values, Table.keys, List.map_map]
  refine List.map_congr_left fun entry hentry => ?_
  exact filed entry.1 entry.2 (Table.mem_entries.mp hentry)

theorem Repository.Filed.mem_findAll (filed : r.Filed) {view : CargoView} :
    view ∈ r.findAll ↔ r.cargos.get? view.trackingId = some view := by
  simp only [findAll, Table.values, List.mem_map]
  constructor
  · rintro ⟨⟨key, view⟩, hentry, rfl⟩
    have hget := Table.mem_entries.mp hentry
    rwa [filed key view hget]
  · intro hget
    exact ⟨(view.trackingId, view), Table.mem_entries.mpr hget, rfl⟩

/-! ## Failing and succeeding -/

/-- A failure is the one met on the way, which is gone then, or the cargo is unknown. Nothing else
changes. -/
theorem Outcome.failed {s : Repository} {error : HandlerError}
    (h : Outcome now e id r (.error error, s)) :
    error = .notFound id ∧ s = r ∨
      ∃ reason, error = .repository reason ∧
        (r = { s with findFaults := reason :: s.findFaults } ∨
          r = { s with storeFaults := reason :: s.storeFaults }) := by
  cases h with
  | unreadable _ hf => exact .inr ⟨_, rfl, .inl (by rw [← hf])⟩
  | unknown => exact .inl ⟨rfl, rfl⟩
  | unwritable _ hs => exact .inr ⟨_, rfl, .inr (by rw [← hs])⟩

theorem Outcome.notFound_iff {s : Repository} {result : Except HandlerError Unit} {what : String}
    (h : Outcome now e id r (result, s)) : result = .error (.notFound what) ↔
      what = id ∧ updated? e = some id ∧ (find id r).1 = .error (.unknownCargo id) := by
  constructor
  · rintro rfl
    cases h with
    | unknown hu hf hv => exact ⟨rfl, hu, by simp only [find, hf, hv]⟩
  · rintro ⟨rfl, hu, hfind⟩
    cases h with
    | unreadable _ hf => simp [find, hf] at hfind
    | unknown => rfl
    | unwritable hp _ | handled hp _ _ =>
      obtain ⟨hf, hc⟩ := hp hu
      obtain ⟨view, hv⟩ := Option.isSome_iff_exists.mp hc
      simp [find, hf, hv] at hfind

theorem Outcome.ok_iff {s : Repository} {result : Except HandlerError Unit}
    (h : Outcome now e id r (result, s)) :
    result = .ok () ↔ r.Passes e id ∧ r.storeFaults = [] := by
  cases h with
  | unreadable hu hf => simp [Passes, hu, hf]
  | unknown hu _ hv => simp [Passes, hu, Table.contains, hv]
  | unwritable _ hs => simp [hs]
  | handled hp hs => exact iff_of_true rfl ⟨hp, hs⟩

theorem Outcome.succeeded {s : Repository} (h : Outcome now e id r (.ok (), s)) (filed : r.Filed)
    (he : cargo? e = some id) :
    (∃ view, s.cargos.get? id = some view ∧ view.trackingId = id ∧
      renewed now e (r.cargos.get? id) = some view) ∧
    ∀ other, other ≠ id → s.cargos.get? other = r.cargos.get? other := by
  cases h with
  | @handled view _ _ hv =>
    have hid : view.trackingId = id := filed.renewed he hv
    refine ⟨⟨view, ?_, hid, hv⟩, fun other hne => ?_⟩
    · rw [put_get?, if_pos hid.symm]
    · rw [put_get?, if_neg (hid ▸ hne)]

/-- In every repository that can be reached, whatever failures are lined up for it. An event of the
kinds that views depend on is about one cargo. If it fails, then all views are as they were, and so
is all else but for the one failure that was met; and it fails with not found exactly if the
look-up it needs finds its cargo unknown. If it is handled, then its cargo has the renewed view,
which carries its id, and no other cargo is touched. Every view stands under its own id, and the
list of all views has each of them once, in increasing order of ids. -/
theorem touches_own_cargo_or_none (deeds : List Deed) (now : Instant) {e : Event}
    (tracked : e.kind ∈ trackedKinds) :
    let r := reached deeds
    let result := (handle now e r).1
    let s := (handle now e r).2
    (∃ id, cargo? e = some id ∧
      (∀ error, result = .error error → s.cargos = r.cargos ∧
        (error = .notFound id ∧ s = r ∨
          ∃ reason, error = .repository reason ∧
            (r = { s with findFaults := reason :: s.findFaults } ∨
              r = { s with storeFaults := reason :: s.storeFaults }))) ∧
      (∀ what, result = .error (.notFound what) ↔
        what = id ∧ updated? e = some id ∧ (find id r).1 = .error (.unknownCargo id)) ∧
      (result = .ok () ↔ r.Passes e id ∧ r.storeFaults = []) ∧
      (result = .ok () →
        (∃ view, s.cargos.get? id = some view ∧ view.trackingId = id ∧
          renewed now e (r.cargos.get? id) = some view) ∧
        ∀ other, other ≠ id → s.cargos.get? other = r.cargos.get? other)) ∧
    (∀ id view, r.cargos.get? id = some view → view.trackingId = id) ∧
    (r.findAll.map (·.trackingId)).Pairwise (· < ·) ∧
    ∀ view, view ∈ r.findAll ↔ r.cargos.get? view.trackingId = some view := by
  intro r result s
  have filed : r.Filed := filed_reached deeds
  obtain ⟨id, hid⟩ := Option.isSome_iff_exists.mp ((cargo?_isSome e).mpr tracked)
  have houtcome : Outcome now e id r (result, s) := handle_outcome hid now r
  refine ⟨⟨id, hid, fun error herror => ⟨?_, ?_⟩, fun what => houtcome.notFound_iff,
    houtcome.ok_iff, fun hok => ?_⟩, filed, ?_, fun view => filed.mem_findAll⟩
  · refine cargos_of_failed fun hok => ?_
    cases herror.symm.trans hok
  · exact (herror ▸ houtcome).failed
  · exact (hok ▸ houtcome).succeeded filed hid
  · rw [filed.ids_findAll]
    exact r.cargos.keys_increasing

def faultyWithTwo : List Deed :=
  [.handle Samples.clock bookingOfABC123,
    .store (.booked (Samples.newCargoBooked "XYZ789" "CNHKG" "USNYC")), .failStore "disk full"]

/-- The change of a destination fails once, and succeeds when it is tried again. -/
theorem touches_own_cargo_or_none_retried :
    let e : Event := .cargoDestinationChanged { trackingId := "ABC123", destination := "DEHAM" }
    let r := reached faultyWithTwo
    let s := (handle Samples.clock e r).2
    e.kind ∈ trackedKinds ∧
    (handle Samples.clock e r).1 = .error (.repository "disk full") ∧ s.cargos = r.cargos ∧
    (handle Samples.clock e s).1 = .ok () ∧
    (handle Samples.clock e s).2.cargos.get? "XYZ789" = s.cargos.get? "XYZ789" := by
  intro e r s
  have tracked : e.kind ∈ trackedKinds := by decide
  obtain ⟨⟨id, hid, hfails, -⟩, -⟩ :=
    touches_own_cargo_or_none faultyWithTwo Samples.clock tracked
  obtain ⟨⟨id', hid', -, -, -, hhandled⟩, -⟩ :=
    touches_own_cargo_or_none (faultyWithTwo ++ [.handle Samples.clock e]) Samples.clock tracked
  obtain rfl : "ABC123" = id' := Option.some.inj hid'
  have hfailed : (handle Samples.clock e r).1 = .error (.repository "disk full") := by
    decide +kernel
  have hok : (handle Samples.clock e s).1 = .ok () := by decide +kernel
  exact ⟨tracked, hfailed, (hfails _ hfailed).1, hok, (hhandled hok).2 "XYZ789" (by decide)⟩

end CargoEvents.Tracking
