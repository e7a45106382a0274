import CargoEvents.Proofs.Bus.Calls
import CargoEvents.Tracking.Handlers

/-! # Handling events

While no failure of the store is lined up, an event is handled if its cargo is known or is
booked by it, and otherwise fails and leaves everything as it was. Views stay under the ids
of their cargos.
-/
namespace CargoEvents.Tracking
open Calendar (Instant)

/-- The cargo whose view an event changes. -/
def updated? : Event → Option String
  | .cargoDestinationChanged e => some e.trackingId
  | .cargoToRouteAssigned e => some e.trackingId
  | .cargoWasHandled e => some e.trackingId
  | .newCargoBooked _ | .handlingEvent _ => none

/-- The cargo for which an event stores a view. -/
def booked? : Event → Option String
  | .newCargoBooked e => some e.trackingId
  | _ => none

/-- No failure is lined up, and every view stands under its own id. -/
structure Repository.Sound (r : Repository) : Prop where
  finds : r.findFaults = []
  stores : r.storeFaults = []
  filed : ∀ id view, r.cargos.get? id = some view → view.trackingId = id

def Repository.holding (views : List CargoView) : Repository :=
  views.foldl (fun r view => (Repository.store view r).2) {}

theorem Repository.Sound.store {r : Repository} (h : r.Sound) (view : CargoView) :
    ∃ r', Repository.store view r = (.ok (), r') ∧ r'.Sound ∧
      ∀ id, r'.cargos.contains id ↔ r.cargos.contains id ∨ view.trackingId = id := by
  refine ⟨{ r with cargos := r.cargos.insert view.trackingId view }, ?_,
    ⟨h.finds, h.stores, ?_⟩, ?_⟩
  · simp only [Repository.store, h.stores]
  · intro id found hf
    rw [Table.get?_insert] at hf
    split at hf
    · rename_i hid
      cases hf
      exact hid.symm
    · exact h.filed id found hf
  · intro id
    rw [Table.contains_insert]
    simp only [Bool.or_eq_true, beq_iff_eq]
    exact or_comm.trans (or_congr_right eq_comm)

theorem Repository.Sound.change {r : Repository} (h : r.Sound) {id : String}
    (hc : r.cargos.contains id) {update : CargoView → CargoView}
    (hid : ∀ view, (update view).trackingId = view.trackingId) :
    ∃ r', Repository.change id update r = (.ok (), r') ∧ r'.Sound ∧
      ∀ id, r'.cargos.contains id ↔ r.cargos.contains id := by
  obtain ⟨view, hview⟩ := Option.isSome_iff_exists.mp hc
  have hfind : Repository.find id r = (.ok view, r) := by
    simp only [Repository.find, h.finds, hview]
  obtain ⟨r', hstore, hr', hcontains⟩ := h.store (update view)
  rw [hid, h.filed id view hview] at hcontains
  refine ⟨r', ?_, hr', fun other => (hcontains other).trans (or_iff_left_of_imp ?_)⟩
  · rw [Repository.change, Call.bind_apply, hfind]
    exact hstore
  · rintro rfl
    exact hc

theorem Repository.Sound.change_unknown {r : Repository} (h : r.Sound) {id : String}
    (hc : ¬r.cargos.contains id) (update : CargoView → CargoView) :
    Repository.change id update r = (.error (.unknownCargo id), r) := by
  have hnone : r.cargos.get? id = none := by simpa [Table.contains] using hc
  have hfind : Repository.find id r = (.error (.unknownCargo id), r) := by
    simp only [Repository.find, h.finds, hnone]
  rw [Repository.change, Call.bind_apply, hfind]

theorem Repository.sound_empty : Repository.Sound {} := ⟨rfl, rfl, by simp⟩

theorem Repository.Sound.storeAll {r : Repository} (h : r.Sound) (views : List CargoView) :
    let r' := views.foldl (fun r view => (Repository.store view r).2) r
    r'.Sound ∧ ∀ id, r'.cargos.contains id ↔
      r.cargos.contains id ∨ ∃ view ∈ views, view.trackingId = id := by
  induction views generalizing r with
  | nil => exact ⟨h, fun id => by simp⟩
  | cons view views ih =>
    obtain ⟨r₁, heq, hr₁, hcontains⟩ := h.store view
    obtain ⟨hsound, hall⟩ := ih hr₁
    simp only [List.foldl_cons, heq]
    refine ⟨hsound, fun id => (hall id).trans ?_⟩
    rw [hcontains, List.exists_mem_cons_iff, or_assoc]

theorem Repository.sound_holding (views : List CargoView) :
    (Repository.holding views).Sound ∧ ∀ id, (Repository.holding views).cargos.contains id ↔
      ∃ view ∈ views, view.trackingId = id := by
  obtain ⟨hsound, hall⟩ := Repository.sound_empty.storeAll views
  refine ⟨hsound, fun id => (hall id).trans ?_⟩
  simp [Table.contains]

theorem Repository.Sound.handle {r : Repository} (h : r.Sound) (now : Instant) {e : Event}
    (hk : ∀ id, updated? e = some id → r.cargos.contains id) :
    ∃ r', Tracking.handle now e r = (.ok (), r') ∧ r'.Sound ∧
      ∀ id, r'.cargos.contains id ↔ r.cargos.contains id ∨ booked? e = some id := by
  rw [Tracking.handle.eq_def, Call.adapt_apply]
  have hchange {id : String} (hid : updated? e = some id) (hb : booked? e = none)
      {update : CargoView → CargoView}
      (hu : ∀ view, (update view).trackingId = view.trackingId) :
      ∃ r', ((Repository.change id update r).1.mapError HandlerError.ofRepository,
          (Repository.change id update r).2) = (.ok (), r') ∧ r'.Sound ∧
        ∀ id, r'.cargos.contains id ↔ r.cargos.contains id ∨ booked? e = some id := by
    obtain ⟨r', heq, hr', hcontains⟩ := h.change (hk id hid) hu
    refine ⟨r', by rw [heq]; rfl, hr', fun other => (hcontains other).trans ?_⟩
    simp [hb]
  cases e with
  | newCargoBooked e =>
    obtain ⟨r', heq, hr', hcontains⟩ := h.store (.booked e)
    refine ⟨r', ?_, hr', fun id => (hcontains id).trans ?_⟩
    · dsimp only
      rw [heq]
      rfl
    · simp [booked?, CargoView.booked]
  | cargoDestinationChanged e => exact hchange rfl rfl fun _ => rfl
  | cargoToRouteAssigned e => exact hchange rfl rfl fun _ => rfl
  | cargoWasHandled e => exact hchange rfl rfl fun _ => rfl
  | handlingEvent e => exact ⟨r, rfl, h, fun id => by simp [booked?]⟩

theorem Repository.Sound.handle_unknown {r : Repository} (h : r.Sound) (now : Instant) {e : Event}
    {id : String} (hid : updated? e = some id) (hc : ¬r.cargos.contains id) :
    Tracking.handle now e r = (.error (.notFound id), r) := by
  rw [Tracking.handle.eq_def, Call.adapt_apply]
  cases e with
  | cargoDestinationChanged | cargoToRouteAssigned | cargoWasHandled =>
    cases hid
    dsimp only
    rw [h.change_unknown hc]
    rfl
  | newCargoBooked | handlingEvent => cases hid

end CargoEvents.Tracking
