import CargoEvents.Proofs.Wire.Records

/-! # One field among others

What a reader makes of a field depends on the records of this field alone, in their order:
taking in records of a message is taking in each field's own. Records that the message has no
field for are passed over.
-/
namespace CargoEvents.Wire
variable {α φ : Type}

def ofNumber (number : Nat) (rs : List Record) : List Record := rs.filter (·.number = number)

def without (number : Nat) (rs : List Record) : List Record := rs.filter (·.number ≠ number)

/-- Setting a field of this number neither changes what the other slots read nor undoes what
they set. -/
inductive Slot.Apart {α φ : Type} (number : Nat) (set : α → φ → α) : List (Slot α) → Prop
  | nil : Slot.Apart number set []
  | own {slot : Slot α} {slots : List (Slot α)} (same : slot.number = number)
      (later : Slot.Apart number set slots) : Slot.Apart number set (slot :: slots)
  | other {ψ : Type} {field : Field ψ} {number' : Nat} {name : String} {get' : α → ψ}
      {set' : α → ψ → α} {slots : List (Slot α)} (get_set : ∀ a v, get' (set a v) = get' a)
      (set_set : ∀ a v w, set' (set a v) w = set (set' a w) v)
      (later : Slot.Apart number set slots) :
      Slot.Apart number set (field.slot number' name get' set' :: slots)

structure Schema.Place (schema : Schema α) (field : Field φ) (number : Nat) (name : String)
    (get : α → φ) (set : α → φ → α) : Prop
    extends schema.Opens field number name get set schema.blank where
  apart : Slot.Apart number set schema.slots

theorem Slot.Apart.merge {number : Nat} {set : α → φ → α} {slots : List (Slot α)}
    (h : Slot.Apart number set slots) {slot : Slot α} (hslot : slot ∈ slots)
    (hne : slot.number ≠ number) (budget : Nat) (wire : WireType) (a : α) (v : φ) (bytes : Bytes) :
    slot.merge budget wire (set a v) bytes =
      (slot.merge budget wire a bytes).map fun (b, rest) => (set b v, rest) := by
  induction h with
  | nil => cases hslot
  | own same later ih =>
    cases hslot with
    | head => exact absurd same hne
    | tail _ hslot => exact ih hslot
  | @other ψ field number' name get' set' slots get_set set_set later ih =>
    cases hslot with
    | head =>
      simp only [Field.slot, get_set]
      split
      · cases field.merge budget (get' a) bytes with
        | error fault => rfl
        | ok merged => simp only [Except.map, set_set]
      · rfl
    | tail _ hslot => exact ih hslot

inductive Field.Takes (field : Field φ) (budget : Nat) : φ → List Record → φ → Prop
  | done (v : φ) : Field.Takes field budget v [] v
  | record {v v' v'' : φ} {r : Record} {rs : List Record} (wire : r.wire = field.wire)
      (merges : field.merge budget v r.value = .ok (v', []))
      (later : Field.Takes field budget v' rs v'') : Field.Takes field budget v (r :: rs) v''

theorem Field.takes_cons {field : Field φ} {budget : Nat} {u w : φ} {r : Record}
    {rs : List Record} : field.Takes budget u (r :: rs) w ↔ r.wire = field.wire ∧
      ∃ v, field.merge budget u r.value = .ok (v, []) ∧ field.Takes budget v rs w := by
  constructor
  · intro h
    cases h with
    | record wire merges later => exact ⟨wire, _, merges, later⟩
  · rintro ⟨wire, v, merges, later⟩
    exact .record wire merges later

@[simp] theorem Field.takes_nil {field : Field φ} {budget : Nat} {v w : φ} :
    field.Takes budget v [] w ↔ v = w := by
  constructor
  · intro h
    cases h
    rfl
  · rintro rfl
    exact .done v

theorem Field.takes_append {field : Field φ} {budget : Nat} {u w : φ} {rs rs' : List Record} :
    field.Takes budget u (rs ++ rs') w ↔
      ∃ v, field.Takes budget u rs v ∧ field.Takes budget v rs' w := by
  constructor
  · intro h
    induction rs generalizing u with
    | nil => exact ⟨u, .done u, h⟩
    | cons r rs ih =>
      cases h with
      | record wire merges later =>
        obtain ⟨v, hfirst, hlast⟩ := ih later
        exact ⟨v, .record wire merges hfirst, hlast⟩
  · rintro ⟨v, hfirst, hlast⟩
    induction hfirst with
    | done v => exact hlast
    | record wire merges later ih => exact .record wire merges (ih hlast)

section Place
variable {schema : Schema α} {field : Field φ} {number : Nat} {name : String} {get : α → φ}
  {set : α → φ → α}

theorem Schema.Opens.mergeValue_eq_ok {b : α} (h : schema.Opens field number name get set b)
    {budget : Nat} {wire : WireType} {a a' : α} {bytes rest : Bytes} :
    schema.mergeValue budget number wire a bytes = .ok (a', rest) ↔ wire = field.wire ∧
      ∃ v, field.merge budget (get a) bytes = .ok (v, rest) ∧ a' = set a v := by
  simp only [Schema.mergeValue, h.found, Field.slot]
  by_cases hwire : wire = field.wire
  · simp only [hwire, if_true, true_and]
    cases field.merge budget (get a) bytes with
    | error fault => simp [Except.map, Except.mapError]
    | ok merged =>
      obtain ⟨v, rest'⟩ := merged
      simp only [Except.map, Except.mapError, Except.ok.injEq, Prod.mk.injEq]
      constructor
      · rintro ⟨rfl, rfl⟩
        exact ⟨v, ⟨rfl, rfl⟩, rfl⟩
      · rintro ⟨_, ⟨rfl, rfl⟩, rfl⟩
        exact ⟨rfl, rfl⟩
  · simp [hwire, Except.mapError]

theorem Schema.mergeValue_unknown (missing : schema.slot? number = none) {budget : Nat}
    {wire : WireType} {a b : α} {bytes rest : Bytes} :
    schema.mergeValue budget number wire a bytes = .ok (b, rest) ↔
      skip budget number wire bytes = .ok rest ∧ a = b := by
  simp only [Schema.mergeValue, missing]
  cases skip budget number wire bytes with
  | error reason => simp
  | ok rest' => simp [and_comm]

theorem Schema.Place.mergeValue_set (place : schema.Place field number name get set)
    {other : Nat} (hne : other ≠ number) (budget : Nat) (wire : WireType) (a : α) (v : φ)
    (bytes : Bytes) : schema.mergeValue budget other wire (set a v) bytes =
      (schema.mergeValue budget other wire a bytes).map fun (b, rest) => (set b v, rest) := by
  unfold Schema.mergeValue
  cases hslot : schema.slot? other with
  | none => cases skip budget other wire bytes <;> rfl
  | some slot =>
    have hnumber : slot.number = other := by simpa using List.find?_some hslot
    have hapart := place.apart.merge (List.mem_of_find?_eq_some hslot) (hnumber ▸ hne)
    dsimp only
    rw [hapart]
    cases slot.merge budget wire a bytes <;> rfl

/-- A record of another field leaves this one as it was, and what it does besides does not
depend on this one. -/
theorem Schema.Place.mergeValue_other (place : schema.Place field number name get set)
    {other : Nat} (hne : other ≠ number) {budget : Nat} {wire : WireType} {a b : α}
    {bytes rest : Bytes} (h : schema.mergeValue budget other wire a bytes = .ok (b, rest)) :
    get b = get a ∧
      ∀ v, schema.mergeValue budget other wire (set a v) bytes = .ok (set b v, rest) := by
  have hset (v : φ) :
      schema.mergeValue budget other wire (set a v) bytes = .ok (set b v, rest) := by
    rw [place.mergeValue_set hne, h]
    rfl
  have hsame := hset (get a)
  rw [place.set_get, h] at hsame
  injection hsame with hsame
  injection hsame with hsame
  refine ⟨?_, hset⟩
  rw [hsame, place.get_set]

theorem Schema.Place.takes_set (place : schema.Place field number name get set) {budget : Nat}
    {a b : α} {rs : List Record} (hrs : ∀ r ∈ rs, r.number ≠ number)
    (h : schema.Takes budget a rs b) (v : φ) : schema.Takes budget (set a v) rs (set b v) := by
  induction h with
  | done a => exact .done _
  | @record a a' a'' r rs merges later ih =>
    have hother := place.mergeValue_other (hrs r List.mem_cons_self) merges
    exact .record (hother.2 v) (ih fun r' hr' => hrs r' (List.mem_cons_of_mem r hr'))

theorem ne_of_mem_without {rs : List Record} {r : Record} (h : r ∈ without number rs) :
    r.number ≠ number := by
  simpa using (List.mem_filter.mp h).2

theorem ofNumber_cons_self {r : Record} (h : r.number = number) (rs : List Record) :
    ofNumber number (r :: rs) = r :: ofNumber number rs :=
  List.filter_cons_of_pos (by simpa using h)

theorem ofNumber_cons_other {r : Record} (h : r.number ≠ number) (rs : List Record) :
    ofNumber number (r :: rs) = ofNumber number rs :=
  List.filter_cons_of_neg (by simpa using h)

theorem without_cons_self {r : Record} (h : r.number = number) (rs : List Record) :
    without number (r :: rs) = without number rs :=
  List.filter_cons_of_neg (by simpa using h)

theorem without_cons_other {r : Record} (h : r.number ≠ number) (rs : List Record) :
    without number (r :: rs) = r :: without number rs :=
  List.filter_cons_of_pos (by simpa using h)

theorem ofNumber_append (rs rs' : List Record) :
    ofNumber number (rs ++ rs') = ofNumber number rs ++ ofNumber number rs' := List.filter_append ..

theorem without_append (rs rs' : List Record) :
    without number (rs ++ rs') = without number rs ++ without number rs' := List.filter_append ..

/-- A message is taken in field by field: this field's records give its value, and the others
are taken in as if it did not exist. -/
theorem Schema.Place.takes_iff (place : schema.Place field number name get set) {budget : Nat}
    {a b : α} {rs : List Record} : schema.Takes budget a rs b ↔
      field.Takes budget (get a) (ofNumber number rs) (get b) ∧
        schema.Takes budget a (without number rs) (set b (get a)) := by
  induction rs generalizing a with
  | nil =>
    simp only [ofNumber, without, List.filter_nil, Field.takes_nil, Schema.takes_nil]
    constructor
    · rintro rfl
      exact ⟨rfl, (place.set_get a).symm⟩
    · rintro ⟨hget, hset⟩
      rw [hset, hget, place.set_get]
  | cons r rs ih =>
    rw [Schema.takes_cons]
    by_cases hr : r.number = number
    · rw [ofNumber_cons_self hr, without_cons_self hr, Field.takes_cons, hr]
      have hrest {a b : α} (v : φ) (h : schema.Takes budget a (without number rs) b) :=
        place.takes_set (fun r' hr' => ne_of_mem_without hr') h v
      constructor
      · rintro ⟨c, merges, later⟩
        obtain ⟨hwire, v, hv, rfl⟩ := place.mergeValue_eq_ok.mp merges
        obtain ⟨hfield, hothers⟩ := ih.mp later
        rw [place.get_set] at hfield hothers
        have hback := hrest (get a) hothers
        rw [place.set_set, place.set_set, place.set_get] at hback
        exact ⟨⟨hwire, v, hv, hfield⟩, hback⟩
      · rintro ⟨⟨hwire, v, hv, hfield⟩, hothers⟩
        refine ⟨set a v, place.mergeValue_eq_ok.mpr ⟨hwire, v, hv, rfl⟩, ih.mpr ?_⟩
        have hfront := hrest v hothers
        rw [place.set_set] at hfront
        rw [place.get_set]
        exact ⟨hfield, hfront⟩
    · rw [ofNumber_cons_other hr, without_cons_other hr, Schema.takes_cons]
      constructor
      · rintro ⟨c, merges, later⟩
        obtain ⟨hfield, hothers⟩ := ih.mp later
        have hget := (place.mergeValue_other hr merges).1
        rw [hget] at hfield hothers
        exact ⟨hfield, c, merges, hothers⟩
      · rintro ⟨hfield, c, merges, hothers⟩
        have hget := (place.mergeValue_other hr merges).1
        refine ⟨c, merges, ih.mpr ?_⟩
        rw [hget]
        exact ⟨hfield, hothers⟩

theorem Schema.Place.takes_replace (place : schema.Place field number name get set) {budget : Nat}
    {a b : α} {rs rs' : List Record} (h : schema.Takes budget a rs b)
    (hothers : without number rs' = without number rs) {v : φ}
    (hown : field.Takes budget (get a) (ofNumber number rs) (get b) →
      field.Takes budget (get a) (ofNumber number rs') v) :
    schema.Takes budget a rs' (set b v) := by
  obtain ⟨hfield, hrest⟩ := place.takes_iff.mp h
  apply place.takes_iff.mpr
  rw [place.get_set, place.set_set, hothers]
  exact ⟨hown hfield, hrest⟩

theorem Schema.takes_without_unknown (missing : schema.slot? number = none) {budget : Nat}
    {a b : α} {rs : List Record} (h : schema.Takes budget a rs b) :
    schema.Takes budget a (without number rs) b := by
  induction h with
  | done a => exact .done a
  | @record a a' a'' r rs merges later ih =>
    by_cases hr : r.number = number
    · rw [without_cons_self hr]
      rw [hr] at merges
      obtain ⟨-, rfl⟩ := (Schema.mergeValue_unknown missing).mp merges
      exact ih
    · rw [without_cons_other hr]
      exact .record merges ih

end Place

end CargoEvents.Wire
