import CargoEvents.Event.Samples
import CargoEvents.Proofs.Tracking.Handling

/-! # Handling an event more than once

What an event puts in the place of something else is the same after a second time. The
history of a cargo is different: a handling that reports a last event appends to it, so
each redelivery leaves one more entry there, and nothing else.
-/
namespace CargoEvents

namespace Table
variable {α : Type}

theorem insert_insert (t : Table α) (key : String) (v w : α) :
    (t.insert key v).insert key w = t.insert key w := by
  apply ext_get?
  intro k
  simp only [get?_insert]
  split <;> rfl

theorem modify_eq_insert {t : Table α} {key : String} {v : α} (h : t.get? key = some v)
    (f : α → α) : t.modify key f = t.insert key (f v) := by
  apply ext_get?
  intro k
  simp only [get?_modify, get?_insert]
  split
  · rename_i hk
    rw [hk, h, Option.map_some]
  · rfl

theorem modify_modify (t : Table α) (key : String) (f g : α → α) :
    (t.modify key f).modify key g = t.modify key fun v => g (f v) := by
  apply ext_get?
  intro k
  simp only [get?_modify]
  split
  · exact Option.map_map ..
  · rfl

theorem modify_self (t : Table α) (key : String) : (t.modify key fun v => v) = t := by
  apply ext_get?
  intro k
  simp

end Table

theorem Call.adapt_eq_ok_iff {ε ε' σ α : Type} {f : ε → ε'} {c : Call ε σ α} {s s' : σ} {a : α} :
    ExceptT.adapt f c s = (.ok a, s') ↔ c s = (.ok a, s') := by
  rw [adapt_apply]
  rcases c s with ⟨_ | _, t⟩
  · constructor <;> intro h <;> cases h
  · constructor <;> intro h <;> cases h <;> rfl

namespace Tracking
open Calendar (Instant)

/-- What a handling of a cargo tells its history: an event, and whether it was expected. -/
structure Report where
  cargo : String
  last : HandlingEvent
  expected : Bool

def Report.entry (report : Report) (now : Instant) : HistoryEntry where
  description := describe report.last now
  expected := report.expected

def report? : Event → Option Report
  | .cargoWasHandled e =>
    let delivery := e.delivery.getD {}
    delivery.lastEvent.map fun last =>
      { cargo := e.trackingId, last, expected := delivery.isLastEventExpected }
  | _ => none

/-- The view of its cargo after an event that was heard of at `now`. -/
def updating (now : Instant) (e : Event) (v : CargoView) : CargoView :=
  match e with
  | .cargoDestinationChanged e => v.withDestination e
  | .cargoToRouteAssigned e => v.withRoute e
  | .cargoWasHandled e => v.withHandling e now
  | .newCargoBooked _ | .handlingEvent _ => v

theorem updating_trackingId (now : Instant) (e : Event) (v : CargoView) :
    (updating now e v).trackingId = v.trackingId := by
  cases e <;> rfl

theorem updating_of_silent {e : Event} (h : report? e = none) (now later : Instant)
    (v : CargoView) : updating later e v = updating now e v := by
  cases e with
  | cargoWasHandled e =>
    have hnone : (e.delivery.getD {}).lastEvent = none := Option.map_eq_none_iff.mp h
    simp only [updating, CargoView.withHandling, hnone, Option.toList_none, List.map_nil]
  | newCargoBooked | cargoDestinationChanged | cargoToRouteAssigned | handlingEvent => rfl

/-- Only the history of a view tells how often it was updated. -/
theorem updating_twice (now later : Instant) (e : Event) (v : CargoView) :
    updating later e (updating now e v) = { updating now e v with
      events := (updating now e v).events ++ (report? e).toList.map (·.entry later) } := by
  cases e with
  | cargoWasHandled e =>
    simp only [updating, CargoView.withHandling, report?]
    cases (e.delivery.getD {}).lastEvent with
    | none => simp only [Option.map_none, Option.toList_none, List.map_nil, List.append_nil]
    | some last => rfl
  | newCargoBooked | cargoDestinationChanged | cargoToRouteAssigned | handlingEvent =>
    have hself (w : CargoView) : w = { w with events := w.events ++ [] } := by
      rw [List.append_nil]
    exact hself _

theorem cases_updated (e : Event) :
    (∃ booking, e = .newCargoBooked booking) ∨ (∃ handling, e = .handlingEvent handling) ∨
      ∃ id, updated? e = some id := by
  cases e with
  | newCargoBooked booking => exact .inl ⟨booking, rfl⟩
  | handlingEvent handling => exact .inr (.inl ⟨handling, rfl⟩)
  | cargoDestinationChanged | cargoToRouteAssigned | cargoWasHandled =>
    exact .inr (.inr ⟨_, rfl⟩)

namespace Repository
variable {r r' : Repository} {id : String} {update : CargoView → CargoView}

/-- Every view stands under its own id. -/
def Filed (r : Repository) : Prop :=
  ∀ id view, r.cargos.get? id = some view → view.trackingId = id

def put (r : Repository) (view : CargoView) : Repository :=
  { r with cargos := r.cargos.insert view.trackingId view }

/-- The repository with more entries at the end of a cargo's history. -/
def noting (r : Repository) (id : String) (entries : List HistoryEntry) : Repository :=
  { r with cargos := r.cargos.modify id fun v => { v with events := v.events ++ entries } }

theorem put_get? (r : Repository) (view : CargoView) (id : String) :
    (r.put view).cargos.get? id =
      if id = view.trackingId then some view else r.cargos.get? id :=
  Table.get?_insert ..

theorem put_put {view view' : CargoView} (h : view.trackingId = view'.trackingId) :
    (r.put view).put view' = r.put view' := by
  simp only [put, h, Table.insert_insert]

theorem Filed.put (filed : r.Filed) (view : CargoView) : (r.put view).Filed := by
  intro id found hf
  rw [put_get?] at hf
  split at hf
  · rename_i hid
    cases hf
    exact hid.symm
  · exact filed id found hf

theorem noting_nil (r : Repository) (id : String) : r.noting id [] = r := by
  simp only [noting, List.append_nil, Table.modify_self]

theorem noting_noting (r : Repository) (id : String) (xs ys : List HistoryEntry) :
    (r.noting id xs).noting id ys = r.noting id (xs ++ ys) := by
  simp only [noting, Table.modify_modify, List.append_assoc]

theorem noting_ne {view : CargoView} (hv : r.cargos.get? id = some view)
    {entries : List HistoryEntry} (h : entries ≠ []) : r.noting id entries ≠ r := by
  intro heq
  have hget : (r.noting id entries).cargos.get? id = r.cargos.get? id := by rw [heq]
  rw [noting, Table.get?_modify, if_pos rfl, hv, Option.map_some, Option.some.injEq] at hget
  have hevents : view.events ++ entries = view.events := congrArg (·.events) hget
  exact h (List.append_right_eq_self.mp hevents)

/-! ## Calls that returned -/

theorem store_eq {view : CargoView} (hs : r.storeFaults = []) :
    store view r = (.ok (), r.put view) := by
  simp only [store, hs, put]

theorem store_eq_ok {view : CargoView} (h : store view r = (.ok (), r')) :
    r.storeFaults = [] ∧ r' = r.put view := by
  unfold store at h
  split at h
  · cases h
  · rename_i hs
    cases h
    exact ⟨hs, rfl⟩

theorem change_eq {view : CargoView} (hf : r.findFaults = []) (hs : r.storeFaults = [])
    (hv : r.cargos.get? id = some view) (update : CargoView → CargoView) :
    change id update r = (.ok (), r.put (update view)) := by
  have hfind : find id r = (.ok view, r) := by simp only [find, hf, hv]
  rw [change, Call.bind_apply, hfind]
  exact store_eq hs

theorem change_put {view found : CargoView} (hf : r.findFaults = []) (hs : r.storeFaults = [])
    (hv : (r.put view).cargos.get? id = some found) (update : CargoView → CargoView) :
    change id update (r.put view) = (.ok (), (r.put view).put (update found)) :=
  @change_eq (r.put view) id found hf hs hv update

theorem change_eq_ok (h : change id update r = (.ok (), r')) :
    ∃ view, r.findFaults = [] ∧ r.storeFaults = [] ∧ r.cargos.get? id = some view ∧
      r' = r.put (update view) := by
  rw [change, Call.bind_apply] at h
  cases hf : r.findFaults with
  | cons reason later =>
    simp only [find, hf] at h
    cases h
  | nil =>
    cases hv : r.cargos.get? id with
    | none =>
      simp only [find, hf, hv] at h
      cases h
    | some view =>
      simp only [find, hf, hv] at h
      obtain ⟨hs, rfl⟩ := store_eq_ok h
      exact ⟨view, rfl, hs, rfl, rfl⟩

theorem change_succeeds_again (h : change id update r = (.ok (), r'))
    (update' : CargoView → CargoView) : (change id update' r').1 = .ok () := by
  obtain ⟨view, hf, hs, hv, rfl⟩ := change_eq_ok h
  obtain ⟨found, hfound⟩ : ∃ found, (r.put (update view)).cargos.get? id = some found := by
    rw [put_get?]
    split
    · exact ⟨_, rfl⟩
    · exact ⟨view, hv⟩
  rw [change_put hf hs hfound]

/-- Making a change again makes no difference if it does not depend on what it replaces. -/
theorem change_again {update' : CargoView → CargoView} (hsame : ∀ v, update' v = update v)
    (htwice : ∀ v, update' (update v) = update v) (h : change id update r = (.ok (), r')) :
    change id update' r' = (.ok (), r') := by
  obtain ⟨view, hf, hs, hv, rfl⟩ := change_eq_ok h
  -- A view that is filed elsewhere is not the one that the change has stored.
  by_cases hid : id = (update view).trackingId
  · have hfound : (r.put (update view)).cargos.get? id = some (update view) := by
      rw [put_get?, if_pos hid]
    rw [change_put hf hs hfound, htwice, put_put rfl]
  · have hfound : (r.put (update view)).cargos.get? id = some view := by
      rw [put_get?, if_neg hid, hv]
    rw [change_put hf hs hfound, hsame, put_put rfl]

theorem change_notes {update' : CargoView → CargoView} {entries : List HistoryEntry}
    (filed : r.Filed) (hid : ∀ v, (update v).trackingId = v.trackingId)
    (hmore : ∀ v, update' (update v) = { update v with events := (update v).events ++ entries })
    (h : change id update r = (.ok (), r')) :
    change id update' r' = (.ok (), r'.noting id entries) := by
  obtain ⟨view, hf, hs, hv, rfl⟩ := change_eq_ok h
  have hkey : (update view).trackingId = id := (hid view).trans (filed id view hv)
  have hfound : (r.put (update view)).cargos.get? id = some (update view) := by
    rw [put_get?, if_pos hkey.symm]
  rw [change_put hf hs hfound, hmore, noting, Table.modify_eq_insert hfound, put]
  simp only [hkey]

end Repository

/-! ## Handling again -/

open Repository
variable {r r' : Repository} {e : Event} {now : Instant}

theorem handle_updated {id : String} (hid : updated? e = some id) (now : Instant) :
    handle now e = ExceptT.adapt .ofRepository (change id (updating now e)) := by
  cases e <;> cases hid <;> rfl

theorem handle_booking_eq_ok {booking : NewCargoBooked}
    (h : handle now (.newCargoBooked booking) r = (.ok (), r')) :
    r.storeFaults = [] ∧ r' = r.put (.booked booking) :=
  store_eq_ok (Call.adapt_eq_ok_iff.mp h)

theorem change_of_handle {id : String} (hid : updated? e = some id)
    (h : handle now e r = (.ok (), r')) : change id (updating now e) r = (.ok (), r') := by
  rw [handle_updated hid] at h
  exact Call.adapt_eq_ok_iff.mp h

theorem updated_of_report {report : Report} (h : report? e = some report) :
    updated? e = some report.cargo := by
  cases e with
  | cargoWasHandled e =>
    obtain ⟨last, -, rfl⟩ := Option.map_eq_some_iff.mp h
    rfl
  | newCargoBooked | cargoDestinationChanged | cargoToRouteAssigned | handlingEvent => cases h

theorem filed_of_handle (filed : r.Filed) (h : handle now e r = (.ok (), r')) : r'.Filed := by
  rcases cases_updated e with ⟨booking, rfl⟩ | ⟨handling, rfl⟩ | ⟨id, hid⟩
  · obtain ⟨-, rfl⟩ := handle_booking_eq_ok h
    exact filed.put _
  · cases h
    exact filed
  · obtain ⟨view, -, -, -, rfl⟩ := change_eq_ok (change_of_handle hid h)
    exact filed.put _

theorem handle_succeeds_again (h : handle now e r = (.ok (), r')) (later : Instant) :
    (handle later e r').1 = .ok () := by
  rcases cases_updated e with ⟨booking, rfl⟩ | ⟨handling, rfl⟩ | ⟨id, hid⟩
  · obtain ⟨hs, rfl⟩ := handle_booking_eq_ok h
    have hstore : store (.booked booking) (r.put (.booked booking)) = (.ok (), _) := store_eq hs
    exact congrArg Prod.fst (Call.adapt_eq_ok_iff.mpr hstore)
  · rfl
  · have hchange := change_succeeds_again (change_of_handle hid h) (updating later e)
    rw [handle_updated hid, Call.adapt_apply, hchange]
    rfl

theorem handle_again (h : handle now e r = (.ok (), r')) (silent : report? e = none)
    (later : Instant) : handle later e r' = (.ok (), r') := by
  rcases cases_updated e with ⟨booking, rfl⟩ | ⟨handling, rfl⟩ | ⟨id, hid⟩
  · obtain ⟨hs, rfl⟩ := handle_booking_eq_ok h
    have hstore := @store_eq (r.put (.booked booking)) (.booked booking) hs
    rw [put_put rfl] at hstore
    exact Call.adapt_eq_ok_iff.mpr hstore
  · rfl
  · rw [handle_updated hid, Call.adapt_eq_ok_iff]
    apply change_again (updating_of_silent silent now later) _ (change_of_handle hid h)
    intro v
    rw [updating_twice, silent, Option.toList_none, List.map_nil, List.append_nil]

theorem handle_reports (h : handle now e r = (.ok (), r')) (filed : r.Filed) {report : Report}
    (reports : report? e = some report) (later : Instant) :
    handle later e r' = (.ok (), r'.noting report.cargo [report.entry later]) := by
  have hid := updated_of_report reports
  rw [handle_updated hid, Call.adapt_eq_ok_iff]
  apply change_notes filed (updating_trackingId now e) _ (change_of_handle hid h)
  intro v
  rw [updating_twice, reports]
  rfl

theorem reported_found (h : handle now e r = (.ok (), r')) (filed : r.Filed) {report : Report}
    (reports : report? e = some report) : ∃ view, r'.cargos.get? report.cargo = some view := by
  obtain ⟨view, -, -, hv, rfl⟩ := change_eq_ok (change_of_handle (updated_of_report reports) h)
  have hkey := (updating_trackingId now e view).trans (filed _ view hv)
  exact ⟨_, by rw [put_get?, if_pos hkey.symm]⟩

/-! ## Any number of redeliveries -/

def handleAt (times : List Instant) (e : Event) : Call HandlerError Repository Unit :=
  times.forM (handle · e)

theorem handleAt_cons {later : Instant} {s s' : Repository}
    (h : handle later e s = (.ok (), s')) (times : List Instant) :
    handleAt (later :: times) e s = handleAt times e s' := by
  have hcons : handleAt (later :: times) e = handle later e >>= fun _ => handleAt times e :=
    List.forM_cons
  rw [hcons, Call.bind_apply, h]

theorem handleAt_succeeds (h : handle now e r = (.ok (), r')) (times : List Instant) :
    (handleAt times e r').1 = .ok () := by
  induction times generalizing now r r' with
  | nil => rfl
  | cons later times ih =>
    have hagain : handle later e r' = (.ok (), (handle later e r').2) :=
      Prod.ext (handle_succeeds_again h later) rfl
    rw [handleAt_cons hagain]
    exact ih hagain

theorem handleAt_silent (h : handle now e r = (.ok (), r')) (silent : report? e = none)
    (times : List Instant) : handleAt times e r' = (.ok (), r') := by
  induction times with
  | nil => rfl
  | cons later times ih => rw [handleAt_cons (handle_again h silent later), ih]

theorem handleAt_reports (h : handle now e r = (.ok (), r')) (filed : r.Filed) {report : Report}
    (reports : report? e = some report) (times : List Instant) :
    handleAt times e r' = (.ok (), r'.noting report.cargo (times.map report.entry)) := by
  induction times generalizing now r r' with
  | nil =>
    rw [List.map_nil, noting_nil]
    rfl
  | cons later times ih =>
    have hagain := handle_reports h filed reports later
    rw [handleAt_cons hagain, ih hagain (filed_of_handle filed h), noting_noting]
    rfl

/-- Redelivery. Once an event was handled with success it is so again, however often and
whenever it is redelivered, whatever the repository holds. If it reports nothing to the
history of its cargo, the repository stays exactly as it was. If it does, and views stand
under their own ids, each time leaves one more entry at the end of that history, and
changes nothing else. -/
theorem redelivered_unless_reporting (handled : handle now e r = (.ok (), r'))
    (times : List Instant) :
    (handleAt times e r').1 = .ok () ∧
    (report? e = none → (handleAt times e r').2 = r') ∧
    ∀ report, report? e = some report → r.Filed →
      (handleAt times e r').2 = r'.noting report.cargo (times.map report.entry) ∧
      (times ≠ [] → (handleAt times e r').2 ≠ r') := by
  refine ⟨handleAt_succeeds handled times, fun silent => ?_, fun report reports filed => ?_⟩
  · rw [handleAt_silent handled silent]
  · rw [handleAt_reports handled filed reports]
    obtain ⟨view, hv⟩ := reported_found handled filed reports
    refine ⟨rfl, fun hne => noting_ne hv ?_⟩
    rwa [ne_eq, List.map_eq_nil_iff]

/-! ## A cargo that is loaded -/

def loading : Event :=
  .cargoWasHandled (Samples.cargoWasHandled "ABC123" .onboardCarrier "SESTO" "0400S" none)

def booked : Repository :=
  ({} : Repository).put (.booked (Samples.newCargoBooked "ABC123" "SESTO" "CNHKG"))

def loaded : Nat → Repository
  | 0 => booked
  | n + 1 => (handle Samples.clock loading (loaded n)).2

theorem redelivered_unless_reporting_loading :
    let noted : HistoryEntry := {
      description := "Loaded onto voyage 0400S in SESTO, at 2025-01-01T00:00:00Z."
      expected := false }
    handle Samples.clock loading (loaded 0) = (.ok (), loaded 1) ∧ (loaded 0).Filed ∧
    (handleAt [Samples.clock, Samples.clock] loading (loaded 1)).2 =
      (loaded 1).noting "ABC123" [noted, noted] := by
  intro noted
  have handled : handle Samples.clock loading (loaded 0) = (.ok (), loaded 1) := rfl
  have filed : (loaded 0).Filed := by
    apply Filed.put
    intro id view hv
    cases hv
  let report : Report := {
    cargo := "ABC123"
    last := { trackingId := "ABC123", activity := some (Samples.activity .load "SESTO" "0400S") }
    expected := false }
  have reports : report? loading = some report := rfl
  have entry : report.entry Samples.clock = noted := by decide +kernel
  obtain ⟨-, -, hreporting⟩ := redelivered_unless_reporting handled [Samples.clock, Samples.clock]
  obtain ⟨hnoted, -⟩ := hreporting report reports filed
  refine ⟨handled, filed, hnoted.trans ?_⟩
  rw [List.map_cons, List.map_singleton, entry]

/-- Handled a second time, the loading stands in the history twice. -/
theorem loading_handled_twice_noted_twice :
    handle Samples.clock loading (loaded 0) = (.ok (), loaded 1) ∧
    handle Samples.clock loading (loaded 1) = (.ok (), loaded 2) ∧ loaded 2 ≠ loaded 1 := by
  refine ⟨rfl, rfl, ?_⟩
  decide +kernel

end Tracking
end CargoEvents
