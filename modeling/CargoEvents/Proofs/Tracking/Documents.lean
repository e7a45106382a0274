import CargoEvents.Proofs.Calendar.Rendering
import CargoEvents.Tracking.View
import Mathlib.Data.List.Forall2

/-! # Views as documents

A view is read back from the document it is written as. Of the documents that others write, exactly
those are read as a view that show it: none of its fields is repeated, others do not matter, an
instant may be missing, and where it is given, its text may be local to any distance from UTC.
-/
namespace CargoEvents
open Calendar (Instant)
open Json (Value)

/-! ## Values -/

namespace Json.Value
variable {α β : Type} {read : Value → Option α} {write : α → Value} {v : Value} {v? : Option Value}

theorem str?_eq_some {s : String} : v.str? = some s ↔ v = .str s := by
  cases v <;> simp [str?]

theorem bool?_eq_some {b : Bool} : v.bool? = some b ↔ v = .bool b := by
  cases v <;> simp [bool?]

theorem bind_str?_eq_some {k : String → Option β} {b : β} :
    (v?.bind fun v => v.str?.bind k) = some b ↔ ∃ s, v? = some (.str s) ∧ k s = some b := by
  simp only [Option.bind_eq_some_iff, str?_eq_some]
  constructor
  · rintro ⟨v, hv, s, rfl, hk⟩
    exact ⟨s, hv, hk⟩
  · rintro ⟨s, hv, hk⟩
    exact ⟨_, hv, s, rfl, hk⟩

theorem record?_obj_eq_some {names : List String} {fields : List (String × Value)}
    {field : String → Option Value} :
    (obj fields).record? names = some field ↔ Single names fields ∧ field? fields = field := by
  simp only [record?, Option.ite_none_right_eq_some, Option.some.injEq]

theorem list?_eq_some {as : List α} : v.list? read = some as ↔
    ∃ items, v = .arr items ∧ List.Forall₂ (fun a item => read item = some a) as items := by
  cases v with
  | arr items =>
    simp only [list?, arr.injEq, exists_eq_left']
    induction items generalizing as with
    | nil => simp [List.forall₂_nil_right_iff, eq_comm]
    | cons item items ih =>
      cases as <;> simp [List.mapM_cons, Option.bind_eq_some_iff, ih, List.forall₂_nil_left_iff]
  | _ => simp [list?]

theorem list?_map (h : ∀ a, read (write a) = some a) (as : List α) :
    (arr (as.map write)).list? read = some as := by
  refine list?_eq_some.mpr ⟨_, rfl, ?_⟩
  rw [List.forall₂_map_right_iff, List.forall₂_same]
  exact fun a _ => h a

theorem option?_some (h : v ≠ null) : v.option? read = (read v).map some := by
  cases v with
  | null => exact absurd rfl h
  | _ => rfl

theorem option?_ofOption (h : ∀ a, read (write a) = some a) (hnull : ∀ a, write a ≠ null)
    (a : Option α) : (ofOption write a).option? read = some a := by
  cases a with
  | none => rfl
  | some a => rw [ofOption, option?_some (hnull a), h, Option.map_some]

end Json.Value

namespace Tracking
open Calendar.Rfc3339 (Local Reader)

/-! ## What shows a view -/

/-- The document shows the entry, by fields or in their order. -/
inductive HistoryEntry.Shown (e : HistoryEntry) : Value → Prop
  | object {fields : List (String × Value)} (single : Value.Single HistoryEntry.names fields)
      (description : Value.field? fields "description" = some (.str e.description))
      (expected : Value.field? fields "expected" = some (.bool e.expected)) : Shown e (.obj fields)
  | array : Shown e (.arr [.str e.description, .bool e.expected])

/-- The document, which may be missing, shows an instant or that there is none. -/
inductive ShownInstant : Option Instant → Option Value → Prop
  | missing : ShownInstant none none
  | null : ShownInstant none (some .null)
  | text {i : Instant} {text : String} {l : Local}
      (hread : Reader.lenient.readLocal text = some l) (hrange : l.InRange)
      (hseconds : i.seconds = l.seconds - l.offset) (hnanos : i.nanos = l.subseconds) :
      ShownInstant (some i) (some (.str text))

/-- Of the fields of an object, those of a view show this one. -/
structure CargoView.Shown (c : CargoView) (fields : List (String × Value)) : Prop where
  single : Value.Single CargoView.names fields
  trackingId : Value.field? fields "tracking_id" = some (.str c.trackingId)
  statusText : Value.field? fields "status_text" = some (.str c.statusText)
  origin : Value.field? fields "origin" = some (.str c.origin)
  destination : Value.field? fields "destination" = some (.str c.destination)
  eta : ShownInstant c.eta (Value.field? fields "eta")
  nextExpectedActivity :
    Value.field? fields "next_expected_activity" = some (.str c.nextExpectedActivity)
  arrivalDeadline : ShownInstant c.arrivalDeadline (Value.field? fields "arrival_deadline")
  events : ∃ items, Value.field? fields "events" = some (.arr items) ∧
    List.Forall₂ HistoryEntry.Shown c.events items

variable {c : CargoView} {e : HistoryEntry} {i? : Option Instant} {v : Value} {v? : Option Value}
  {fields : List (String × Value)}

theorem HistoryEntry.ofJson?_eq_some : HistoryEntry.ofJson? v = some e ↔ e.Shown v := by
  constructor
  · intro h
    obtain ⟨field, hfield, h⟩ := Option.bind_eq_some_iff.mp h
    obtain ⟨_, hdescription, h⟩ := Value.bind_str?_eq_some.mp h
    obtain ⟨_, hexpected, h⟩ := Option.bind_eq_some_iff.mp h
    obtain ⟨_, hbool, h⟩ := Option.bind_eq_some_iff.mp h
    obtain rfl := Value.bool?_eq_some.mp hbool
    cases h
    cases v with
    | obj fields =>
      obtain ⟨hsingle, rfl⟩ := Value.record?_obj_eq_some.mp hfield
      exact .object hsingle hdescription hexpected
    | arr items =>
      obtain ⟨hlength, hfields⟩ := Option.ite_none_right_eq_some.mp hfield
      cases hfields
      match items, hlength with
      | [_, _], _ =>
        cases hdescription
        cases hexpected
        exact .array
    | _ => cases hfield
  · rintro (⟨hsingle, hdescription, hexpected⟩ | _)
    · refine Option.bind_eq_some_iff.mpr ⟨_, Value.record?_obj_eq_some.mpr ⟨hsingle, rfl⟩, ?_⟩
      refine Value.bind_str?_eq_some.mpr ⟨_, hdescription, ?_⟩
      exact Option.bind_eq_some_iff.mpr ⟨_, hexpected, rfl⟩
    · rfl

theorem instantOfJson?_str (text : String) :
    instantOfJson? (.str text) = Calendar.Rfc3339.read text := rfl

theorem shownInstant_iff :
    (Value.orNull v?).option? instantOfJson? = some i? ↔ ShownInstant i? v? := by
  constructor
  · intro h
    cases v? with
    | none =>
      cases h
      exact .missing
    | some v =>
      cases v with
      | null =>
        cases h
        exact .null
      | str text =>
        rw [Value.orNull, Value.option?_some (by simp), instantOfJson?_str] at h
        obtain ⟨i, hi, rfl⟩ := Option.map_eq_some_iff.mp h
        obtain ⟨l, hread, hrange, hseconds, hnanos⟩ := Calendar.Rfc3339.read_eq_some.mp hi
        exact .text hread hrange hseconds hnanos
      | _ => cases h
  · rintro (_ | _ | ⟨hread, hrange, hseconds, hnanos⟩)
    · rfl
    · rfl
    · have hi := Calendar.Rfc3339.read_eq_some.mpr ⟨_, hread, hrange, hseconds, hnanos⟩
      rw [Value.orNull, Value.option?_some (by simp), instantOfJson?_str, hi, Option.map_some]

theorem CargoView.ofJson?_obj_eq_some : CargoView.ofJson? (.obj fields) = some c ↔
    c.Shown fields := by
  constructor
  · intro h
    obtain ⟨_, hfield, h⟩ := Option.bind_eq_some_iff.mp h
    obtain ⟨hsingle, rfl⟩ := Value.record?_obj_eq_some.mp hfield
    obtain ⟨_, htrackingId, h⟩ := Value.bind_str?_eq_some.mp h
    obtain ⟨_, hstatusText, h⟩ := Value.bind_str?_eq_some.mp h
    obtain ⟨_, horigin, h⟩ := Value.bind_str?_eq_some.mp h
    obtain ⟨_, hdestination, h⟩ := Value.bind_str?_eq_some.mp h
    obtain ⟨_, heta, h⟩ := Option.bind_eq_some_iff.mp h
    obtain ⟨_, hactivity, h⟩ := Value.bind_str?_eq_some.mp h
    obtain ⟨_, hdeadline, h⟩ := Option.bind_eq_some_iff.mp h
    obtain ⟨_, hvalue, h⟩ := Option.bind_eq_some_iff.mp h
    obtain ⟨_, hevents, h⟩ := Option.bind_eq_some_iff.mp h
    cases h
    obtain ⟨items, rfl, hitems⟩ := Value.list?_eq_some.mp hevents
    exact ⟨hsingle, htrackingId, hstatusText, horigin, hdestination, shownInstant_iff.mp heta, hactivity,
      shownInstant_iff.mp hdeadline, items, hvalue,
      hitems.imp fun _ _ => HistoryEntry.ofJson?_eq_some.mp⟩
  · intro h
    obtain ⟨items, hvalue, hitems⟩ := h.events
    refine Option.bind_eq_some_iff.mpr ⟨_, Value.record?_obj_eq_some.mpr ⟨h.single, rfl⟩, ?_⟩
    refine Value.bind_str?_eq_some.mpr ⟨_, h.trackingId, ?_⟩
    refine Value.bind_str?_eq_some.mpr ⟨_, h.statusText, ?_⟩
    refine Value.bind_str?_eq_some.mpr ⟨_, h.origin, ?_⟩
    refine Value.bind_str?_eq_some.mpr ⟨_, h.destination, ?_⟩
    refine Option.bind_eq_some_iff.mpr ⟨_, shownInstant_iff.mpr h.eta, ?_⟩
    refine Value.bind_str?_eq_some.mpr ⟨_, h.nextExpectedActivity, ?_⟩
    refine Option.bind_eq_some_iff.mpr ⟨_, shownInstant_iff.mpr h.arrivalDeadline, ?_⟩
    refine Option.bind_eq_some_iff.mpr ⟨_, hvalue, ?_⟩
    refine Option.bind_eq_some_iff.mpr ⟨c.events, Value.list?_eq_some.mpr ⟨items, rfl, ?_⟩, rfl⟩
    exact hitems.imp fun _ _ => HistoryEntry.ofJson?_eq_some.mpr

/-! ## Writing and reading back -/

theorem instantOfJson?_toJson (i : Instant) : instantOfJson? (instantToJson i) = some i := by
  rw [instantToJson, instantOfJson?_str, Calendar.Rfc3339.read_render]

theorem HistoryEntry.ofJson?_toJson (e : HistoryEntry) :
    HistoryEntry.ofJson? e.toJson = some e := rfl

theorem CargoView.ofJson?_toJson (c : CargoView) : CargoView.ofJson? c.toJson = some c := by
  have hinstant (i : Option Instant) :
      (Value.ofOption instantToJson i).option? instantOfJson? = some i :=
    Value.option?_ofOption instantOfJson?_toJson (by simp [instantToJson]) i
  have hevents : (Value.arr (c.events.map HistoryEntry.toJson)).list? HistoryEntry.ofJson? =
      some c.events := Value.list?_map HistoryEntry.ofJson?_toJson c.events
  -- The texts are found as they were written.
  show (do
    let eta ← (Value.ofOption instantToJson c.eta).option? instantOfJson?
    let arrivalDeadline ← (Value.ofOption instantToJson c.arrivalDeadline).option? instantOfJson?
    let events ← (Value.arr (c.events.map HistoryEntry.toJson)).list? HistoryEntry.ofJson?
    return { c with eta, arrivalDeadline, events }) = some c
  rw [hinstant, hinstant, hevents]
  rfl

/-- Every view is read back from its document. An object that someone else wrote is read as a view
exactly if it shows this one, and then, as whatever is read as a view, it is the same when it is
written and read again. -/
theorem CargoView.survives_json :
    (∀ c : CargoView, CargoView.ofJson? c.toJson = some c) ∧
    (∀ fields c, CargoView.ofJson? (.obj fields) = some c ↔ c.Shown fields) ∧
    ∀ v c, CargoView.ofJson? v = some c → CargoView.ofJson? c.toJson = some c :=
  ⟨ofJson?_toJson, fun _ _ => ofJson?_obj_eq_some, fun _ c _ => c.ofJson?_toJson⟩

/-- A view with an arrival in the leap second at the end of 2016. -/
def CargoView.leaping : CargoView where
  trackingId := "ABC123"
  statusText := "InPort"
  origin := "SESTO"
  destination := "CNHKG"
  eta := some ⟨1483228799, 1_250_000_000, by decide, by decide, by decide⟩
  nextExpectedActivity := ""
  arrivalDeadline := none
  events := [⟨"Received in SESTO.", true⟩]

/-- The arrival in local time, no deadline, and a field that is not known. -/
theorem CargoView.survives_json_leaping :
    let fields : List (String × Value) := [
      ("tracking_id", .str "ABC123"), ("status_text", .str "InPort"), ("origin", .str "SESTO"),
      ("destination", .str "CNHKG"), ("eta", .str "2016-12-31T15:59:60.25-08:00"),
      ("weight", .int 7), ("next_expected_activity", .str ""),
      ("events", .arr [.obj [("expected", .bool true), ("description", .str "Received in SESTO.")]])]
    leaping.Shown fields ∧ CargoView.ofJson? (.obj fields) = some leaping ∧
      leaping.toJson ≠ .obj fields ∧ CargoView.ofJson? leaping.toJson = some leaping := by
  intro fields
  obtain ⟨-, hshown, hagain⟩ := survives_json
  have hread : CargoView.ofJson? (.obj fields) = some leaping := by decide +kernel
  refine ⟨(hshown fields leaping).mp hread, hread, ?_, hagain _ _ hread⟩
  simp [fields, toJson]

/-- A field that is given twice is refused. -/
example : HistoryEntry.ofJson? (.obj [("description", .str "Received in SESTO."),
    ("expected", .bool true), ("expected", .bool true)]) = none := rfl

end Tracking
end CargoEvents
