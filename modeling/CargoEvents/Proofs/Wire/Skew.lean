import CargoEvents.Proofs.Wire.Places
import Mathlib.Data.List.Forall2
import Mathlib.Logic.Relation

/-! # Writers and readers of different ages

A newer writer knows fields that the reader lacks, an older one leaves fields out, and the
order in which fields are written is the writer's own. The message types that embed one
another are taken together as a format, so that records can be put in, moved and left out at
any depth of a payload.
-/
namespace CargoEvents.Wire
variable {ι : Type}

/-- The message type that a field holds, once at most or any number of times. -/
inductive Nesting (ι : Type)
  | one (m : ι)
  | many (m : ι)

def Nesting.message : Nesting ι → ι
  | .one m => m
  | .many m => m

/-- Message types under their names, with the type each field of theirs embeds. -/
structure Format (ι : Type) where
  Body : ι → Type
  schema : (m : ι) → Schema (Body m)
  nested : ι → Nat → Option (Nesting ι)

namespace Format

/-- What a number may stand for in a message type: no field of it, a scalar, or other messages. -/
inductive Knows (format : Format ι) (m : ι) (number : Nat) : Prop
  | unknown (flat : format.nested m number = none) (missing : (format.schema m).slot? number = none)
  | scalar {φ : Type} {field : Field φ} {name : String} {get : format.Body m → φ}
      {set : format.Body m → φ → format.Body m} (flat : format.nested m number = none)
      (isLocal : ∀ budget, field.Local budget)
      (place : (format.schema m).Place field number name get set)
  | one {sub : ι} {name : String} {get : format.Body m → Option (format.Body sub)}
      {set : format.Body m → Option (format.Body sub) → format.Body m}
      (nests : format.nested m number = some (.one sub))
      (place : (format.schema m).Place (.optional (format.schema sub)) number name get set)
  | many {sub : ι} {name : String} {get : format.Body m → List (format.Body sub)}
      {set : format.Body m → List (format.Body sub) → format.Body m}
      (nests : format.nested m number = some (.many sub))
      (place : (format.schema m).Place (.repeated (format.schema sub)) number name get set)

/-- Every number stands for something in every message type. -/
def Regular (format : Format ι) : Prop := ∀ m number, format.Knows m number

/-- These slots of a message type stand for what the format says of their numbers. -/
inductive Describes (format : Format ι) (m : ι) : List (Slot (format.Body m)) → Prop
  | nil : Describes format m []
  | scalar {φ : Type} {field : Field φ} {number : Nat} {name : String} {get : format.Body m → φ}
      {set : format.Body m → φ → format.Body m} {slots : List (Slot (format.Body m))}
      (isLocal : ∀ budget, field.Local budget) (flat : format.nested m number = none)
      (place : (format.schema m).Place field number name get set)
      (later : Describes format m slots) :
      Describes format m (field.slot number name get set :: slots)
  | one (sub : ι) {number : Nat} {name : String} {get : format.Body m → Option (format.Body sub)}
      {set : format.Body m → Option (format.Body sub) → format.Body m}
      {slots : List (Slot (format.Body m))} (nests : format.nested m number = some (.one sub))
      (place : (format.schema m).Place (.optional (format.schema sub)) number name get set)
      (later : Describes format m slots) :
      Describes format m ((Field.optional (format.schema sub)).slot number name get set :: slots)
  | many (sub : ι) {number : Nat} {name : String} {get : format.Body m → List (format.Body sub)}
      {set : format.Body m → List (format.Body sub) → format.Body m}
      {slots : List (Slot (format.Body m))} (nests : format.nested m number = some (.many sub))
      (place : (format.schema m).Place (.repeated (format.schema sub)) number name get set)
      (later : Describes format m slots) :
      Describes format m ((Field.repeated (format.schema sub)).slot number name get set :: slots)

/-- One change to the records of a message: a record of a field it lacks put in, two neighbours
of different fields exchanged, or such a change to the records an embedded message holds. -/
inductive Skew (format : Format ι) : ι → Nat → List Record → List Record → Prop
  | insert {m : ι} {budget : Nat} {before after : List Record} {r : Record}
      (unknown : (format.schema m).slot? r.number = none) (within : r.Within budget) :
      Skew format m budget (before ++ after) (before ++ r :: after)
  | swap {m : ι} {budget : Nat} {before after : List Record} {r r' : Record}
      (apart : r.number ≠ r'.number) :
      Skew format m budget (before ++ r :: r' :: after) (before ++ r' :: r :: after)
  | inside {m : ι} {budget : Nat} {before after inner inner' : List Record} {r : Record}
      {value' : Bytes} {nesting : Nesting ι} (nests : format.nested m r.number = some nesting)
      (wire : r.wire = .delimited) (holds : Holds r.value inner) (holds' : Holds value' inner')
      (change : Skew format nesting.message budget inner inner') :
      Skew format m (budget + 1) (before ++ r :: after)
        (before ++ { r with value := value' } :: after)

/-- A field of a message, or of one that it embeds: the message of a field, or its list's `i`-th. -/
inductive Path
  | here (number : Nat)
  | inside (number : Nat) (path : Path)
  | element (number i : Nat) (path : Path)
  deriving DecidableEq, Repr

/-- Each record of field `number` holds the records of one list and comes to hold those of the
other, the length ahead of them set anew. The other records stay. -/
inductive Refilled (number : Nat) :
    List Record → List (List Record) → List (List Record) → List Record → Prop
  | done : Refilled number [] [] [] []
  | other {r : Record} {rs rs' : List Record} {inners inners' : List (List Record)}
      (apart : r.number ≠ number) (later : Refilled number rs inners inners' rs') :
      Refilled number (r :: rs) inners inners' (r :: rs')
  | own {r : Record} {rs rs' inner inner' : List Record} {inners inners' : List (List Record)}
      {value' : Bytes} (same : r.number = number) (wire : r.wire = .delimited)
      (holds : Holds r.value inner) (holds' : Holds value' inner')
      (later : Refilled number rs inners inners' rs') :
      Refilled number (r :: rs) (inner :: inners) (inner' :: inners')
        ({ r with value := value' } :: rs')

/-- All records of the field at the path are left out. A message of which several records hold a
part loses the field's records in each of them. -/
inductive Pruned (format : Format ι) : ι → Path → List Record → List Record → Prop
  | here {m : ι} {number : Nat} {rs : List Record} :
      Pruned format m (.here number) rs (without number rs)
  | inside {m sub : ι} {number : Nat} {path : Path} {rs rs' : List Record}
      {inners inners' : List (List Record)} (nests : format.nested m number = some (.one sub))
      (refilled : Refilled number rs inners inners' rs')
      (inner : Pruned format sub path inners.flatten inners'.flatten) :
      Pruned format m (.inside number path) rs rs'
  | element {m sub : ι} {path : Path} {before after inner inner' : List Record} {r : Record}
      {value' : Bytes} (nests : format.nested m r.number = some (.many sub))
      (wire : r.wire = .delimited) (holds : Holds r.value inner) (holds' : Holds value' inner')
      (inner : Pruned format sub path inner inner') :
      Pruned format m (.element r.number (ofNumber r.number before).length path)
        (before ++ r :: after) (before ++ { r with value := value' } :: after)

/-- The function sets the field at the path to its default and leaves all others. A path that
ends in a number the message type lacks stands for no field. -/
inductive Clears (format : Format ι) :
    (m : ι) → Path → (format.Body m → format.Body m) → Prop
  | none {m : ι} {number : Nat} (missing : (format.schema m).slot? number = none) :
      Clears format m (.here number) id
  | here {m : ι} {number : Nat} {φ : Type} {field : Field φ} {name : String}
      {get : format.Body m → φ} {set : format.Body m → φ → format.Body m}
      (place : (format.schema m).Place field number name get set) :
      Clears format m (.here number) fun a => set a field.blank
  | inside {m sub : ι} {number : Nat} {path : Path} {name : String}
      {get : format.Body m → Option (format.Body sub)}
      {set : format.Body m → Option (format.Body sub) → format.Body m}
      {f : format.Body sub → format.Body sub} (nests : format.nested m number = some (.one sub))
      (place : (format.schema m).Place (.optional (format.schema sub)) number name get set)
      (inner : Clears format sub path f) :
      Clears format m (.inside number path) fun a => set a ((get a).map f)
  | element {m sub : ι} {number i : Nat} {path : Path} {name : String}
      {get : format.Body m → List (format.Body sub)}
      {set : format.Body m → List (format.Body sub) → format.Body m}
      {f : format.Body sub → format.Body sub} (nests : format.nested m number = some (.many sub))
      (place : (format.schema m).Place (.repeated (format.schema sub)) number name get set)
      (inner : Clears format sub path f) :
      Clears format m (.element number i path) fun a => set a ((get a).modify i f)

end Format

/-! ## Regular formats are local -/

theorem Schema.Place.merges_local {α φ : Type} {schema : Schema α} {field : Field φ}
    {number : Nat} {name : String} {get : α → φ} {set : α → φ → α}
    (place : schema.Place field number name get set) {budget : Nat} (hl : field.Local budget)
    {a b : α} {wire : WireType} {bytes rest : Bytes} :
    schema.mergeValue budget number wire a bytes = .ok (b, rest) ↔
      ∃ value, (∃ nesting, IsValue nesting number wire value) ∧ bytes = value ++ rest ∧
        schema.mergeValue budget number wire a value = .ok (b, []) := by
  constructor
  · intro h
    obtain ⟨rfl, v, hv, hb⟩ := place.mergeValue_eq_ok.mp h
    obtain ⟨value, hvalue, hbytes, hone⟩ := hl.merges.mp hv
    exact ⟨value, ⟨1, hvalue number⟩, hbytes, place.mergeValue_eq_ok.mpr ⟨rfl, v, hone, hb⟩⟩
  · rintro ⟨value, -, rfl, h⟩
    obtain ⟨hwire, v, hv, hb⟩ := place.mergeValue_eq_ok.mp h
    obtain ⟨value', hvalue, hsame, hone⟩ := hl.merges.mp hv
    rw [List.append_nil] at hsame
    subst hsame
    exact place.mergeValue_eq_ok.mpr ⟨hwire, v, hl.merges.mpr ⟨value, hvalue, rfl, hone⟩, hb⟩

theorem Schema.unknown_local {α : Type} {schema : Schema α} {number : Nat}
    (missing : schema.slot? number = none) {budget : Nat} {a b : α} {wire : WireType}
    {bytes rest : Bytes} : schema.mergeValue budget number wire a bytes = .ok (b, rest) ↔
      ∃ value, (∃ nesting, IsValue nesting number wire value) ∧ bytes = value ++ rest ∧
        schema.mergeValue budget number wire a value = .ok (b, []) := by
  simp only [Schema.mergeValue_unknown missing, skip_eq_ok]
  constructor
  · rintro ⟨⟨value, hvalue, rfl⟩, hsame⟩
    exact ⟨value, ⟨budget, hvalue⟩, rfl, ⟨value, hvalue, (List.append_nil value).symm⟩, hsame⟩
  · rintro ⟨value, -, rfl, ⟨value', hvalue, hsame⟩, hb⟩
    rw [List.append_nil] at hsame
    subst hsame
    exact ⟨⟨value, hvalue, rfl⟩, hb⟩

namespace Format
variable {format : Format ι} {m : ι} {budget : Nat}

theorem Describes.knows {slots : List (Slot (format.Body m))} (h : format.Describes m slots)
    {slot : Slot (format.Body m)} (hslot : slot ∈ slots) : format.Knows m slot.number := by
  induction h with
  | nil => cases hslot
  | scalar isLocal flat place later ih =>
    cases hslot with
    | head => exact .scalar flat isLocal place
    | tail _ hslot => exact ih hslot
  | one sub nests place later ih =>
    cases hslot with
    | head => exact .one nests place
    | tail _ hslot => exact ih hslot
  | many sub nests place later ih =>
    cases hslot with
    | head => exact .many nests place
    | tail _ hslot => exact ih hslot

theorem regular_of_describes (h : ∀ m, format.Describes m (format.schema m).slots)
    (flat : ∀ m number, (format.schema m).slot? number = none → format.nested m number = none) :
    format.Regular := by
  intro m number
  cases hslot : (format.schema m).slot? number with
  | none => exact .unknown (flat m number hslot) hslot
  | some slot =>
    have hnumber : slot.number = number := by simpa using List.find?_some hslot
    have hknows := (h m).knows (List.mem_of_find?_eq_some hslot)
    rwa [hnumber] at hknows

/-- An embedded message is read with one unit of the budget less, which the induction is on. -/
theorem Regular.local (h : format.Regular) (budget : Nat) (m : ι) :
    (format.schema m).Local budget := by
  induction budget using Nat.strongRecOn generalizing m with
  | ind budget ih =>
    have hbelow (sub : ι) (left : Nat) (hleft : budget = left + 1) :
        (format.schema sub).Local left := ih left (by omega) sub
    constructor
    intro a b number wire bytes rest
    cases h m number with
    | unknown flat missing => exact Schema.unknown_local missing
    | scalar flat isLocal place => exact place.merges_local (isLocal budget)
    | one nests place =>
      exact place.merges_local ((Field.embeds_optional _).local (hbelow _))
    | many nests place =>
      exact place.merges_local ((Field.embeds_repeated _).local (hbelow _))

/-! ## Changes that a reader does not notice -/

theorem Regular.embeds (h : format.Regular) {number : Nat} {nesting : Nesting ι}
    (nests : format.nested m number = some nesting) :
    ∃ (φ : Type) (field : Field φ) (name : String) (get : format.Body m → φ)
      (set : format.Body m → φ → format.Body m) (start : φ → format.Body nesting.message)
      (finish : φ → format.Body nesting.message → φ),
      (format.schema m).Place field number name get set ∧
        field.Embeds (format.schema nesting.message) start finish := by
  cases h m number with
  | unknown flat missing => cases flat.symm.trans nests
  | scalar flat isLocal place => cases flat.symm.trans nests
  | one nests' place =>
    cases nests'.symm.trans nests
    exact ⟨_, _, _, _, _, _, _, place, Field.embeds_optional _⟩
  | many nests' place =>
    cases nests'.symm.trans nests
    exact ⟨_, _, _, _, _, _, _, place, Field.embeds_repeated _⟩

/-- Neighbours of different fields do not see one another. -/
theorem Regular.takes_swap (h : format.Regular) {a b : format.Body m} {r r' : Record}
    {rs : List Record} (apart : r.number ≠ r'.number)
    (htakes : (format.schema m).Takes budget a (r :: r' :: rs) b) :
    (format.schema m).Takes budget a (r' :: r :: rs) b := by
  have hplace {φ : Type} {field : Field φ} {name : String} {get : format.Body m → φ}
      {set : format.Body m → φ → format.Body m}
      (place : (format.schema m).Place field r.number name get set) :
      (format.schema m).Takes budget a (r' :: r :: rs) b := by
    apply place.takes_iff.mpr
    have hsplit := place.takes_iff.mp htakes
    rw [ofNumber_cons_self rfl, ofNumber_cons_other apart.symm, without_cons_self rfl,
      without_cons_other apart.symm] at hsplit
    rwa [ofNumber_cons_other apart.symm, ofNumber_cons_self rfl, without_cons_other apart.symm,
      without_cons_self rfl]
  cases h m r.number with
  | unknown flat missing =>
    obtain ⟨a', hfirst, hlater⟩ := Schema.takes_cons.mp htakes
    obtain ⟨hskip, rfl⟩ := (Schema.mergeValue_unknown missing).mp hfirst
    obtain ⟨c, hsecond, hrest⟩ := Schema.takes_cons.mp hlater
    exact .record hsecond (.record ((Schema.mergeValue_unknown missing).mpr ⟨hskip, rfl⟩) hrest)
  | scalar flat isLocal place => exact hplace place
  | one nests place => exact hplace place
  | many nests place => exact hplace place

theorem Skew.takes (h : format.Regular) {rs rs' : List Record}
    (change : format.Skew m budget rs rs') {a b : format.Body m}
    (htakes : (format.schema m).Takes budget a rs b) :
    (format.schema m).Takes budget a rs' b := by
  induction change with
  | insert unknown within =>
    obtain ⟨c, hbefore, hafter⟩ := Schema.takes_append.mp htakes
    have hskip := skip_eq_ok.mpr ⟨_, within.value, (List.append_nil _).symm⟩
    exact hbefore.append (.record ((Schema.mergeValue_unknown unknown).mpr ⟨hskip, rfl⟩) hafter)
  | swap apart =>
    obtain ⟨c, hbefore, hafter⟩ := Schema.takes_append.mp htakes
    exact hbefore.append (h.takes_swap apart hafter)
  | @inside m budget before after inner inner' r value' nesting nests wire holds holds' change ih =>
    obtain ⟨c, hbefore, hrest⟩ := Schema.takes_append.mp htakes
    obtain ⟨d, hmerge, hafter⟩ := Schema.takes_cons.mp hrest
    obtain ⟨φ, field, name, get, set, start, finish, place, embeds⟩ := h.embeds nests
    have hl := h.local budget nesting.message
    obtain ⟨hwire, v, hv, rfl⟩ := place.mergeValue_eq_ok.mp hmerge
    obtain ⟨x, hinner, rfl⟩ := (embeds.merge_value hl holds).mp hv
    have hinner' := ih hinner
    have hv' := (embeds.merge_value hl holds').mpr ⟨x, hinner', rfl⟩
    exact hbefore.append (.record (place.mergeValue_eq_ok.mpr ⟨hwire, _, hv', rfl⟩) hafter)

theorem Skew.takes_all (h : format.Regular) {rs rs' : List Record}
    (changes : Relation.ReflTransGen (format.Skew m budget) rs rs') {a b : format.Body m}
    (htakes : (format.schema m).Takes budget a rs b) :
    (format.schema m).Takes budget a rs' b := by
  induction changes with
  | refl => exact htakes
  | tail _ change ih => exact change.takes h ih

/-! ## Changed records are records -/

theorem wellFormed_refilled {r : Record} {value' : Bytes} {inner' : List Record}
    (h : r.WellFormed) (wire : r.wire = .delimited) (holds' : Holds value' inner') :
    ({ r with value := value' } : Record).WellFormed := by
  obtain ⟨nesting, hkey, -⟩ := h
  refine ⟨1, hkey, ?_⟩
  change IsValue 1 r.number r.wire value'
  rw [wire]
  exact holds'.isValue 0 r.number

theorem wellFormed_replace {before after : List Record} {r r' : Record}
    (h : ∀ x ∈ before ++ r :: after, x.WellFormed) (h' : r'.WellFormed) :
    ∀ x ∈ before ++ r' :: after, x.WellFormed := by
  intro x hx
  obtain hx | hx := List.mem_append.mp hx
  · exact h x (List.mem_append_left _ hx)
  · obtain rfl | hx := List.mem_cons.mp hx
    · exact h'
    · exact h x (List.mem_append_right _ (List.mem_cons_of_mem r hx))

theorem Skew.wellFormed {rs rs' : List Record} (change : format.Skew m budget rs rs')
    (hrs : ∀ r ∈ rs, r.WellFormed) : ∀ r ∈ rs', r.WellFormed := by
  cases change with
  | insert unknown within =>
    intro r hr
    obtain hr | hr := List.mem_append.mp hr
    · exact hrs r (List.mem_append_left _ hr)
    · obtain rfl | hr := List.mem_cons.mp hr
      · exact ⟨budget, within⟩
      · exact hrs r (List.mem_append_right _ hr)
  | @swap _ _ before after r r' apart =>
    have hperm : List.Perm (before ++ r' :: r :: after) (before ++ r :: r' :: after) :=
      (List.Perm.swap r r' after).append_left before
    intro x hx
    exact hrs x (hperm.mem_iff.mp hx)
  | inside nests wire holds holds' change =>
    have hr := hrs _ (List.mem_append_right _ List.mem_cons_self)
    exact wellFormed_replace hrs (wellFormed_refilled hr wire holds')

theorem Skew.wellFormed_all {rs rs' : List Record}
    (changes : Relation.ReflTransGen (format.Skew m budget) rs rs')
    (hrs : ∀ r ∈ rs, r.WellFormed) : ∀ r ∈ rs', r.WellFormed := by
  induction changes with
  | refl => exact hrs
  | tail _ change ih => exact change.wellFormed ih

theorem Refilled.wellFormed {number : Nat} {rs rs' : List Record}
    {inners inners' : List (List Record)} (h : Refilled number rs inners inners' rs')
    (hrs : ∀ r ∈ rs, r.WellFormed) : ∀ r ∈ rs', r.WellFormed := by
  induction h with
  | done => exact hrs
  | other apart later ih =>
    obtain ⟨hr, hlater⟩ := List.forall_mem_cons.mp hrs
    exact List.forall_mem_cons.mpr ⟨hr, ih hlater⟩
  | own same wire holds holds' later ih =>
    obtain ⟨hr, hlater⟩ := List.forall_mem_cons.mp hrs
    exact List.forall_mem_cons.mpr ⟨wellFormed_refilled hr wire holds', ih hlater⟩

theorem Pruned.wellFormed {path : Path} {rs rs' : List Record}
    (pruned : format.Pruned m path rs rs') (hrs : ∀ r ∈ rs, r.WellFormed) :
    ∀ r ∈ rs', r.WellFormed := by
  cases pruned with
  | here => exact fun r hr => hrs r (List.mem_filter.mp hr).1
  | inside nests refilled inner => exact refilled.wellFormed hrs
  | element nests wire holds holds' inner =>
    have hr := hrs _ (List.mem_append_right _ List.mem_cons_self)
    exact wellFormed_replace hrs (wellFormed_refilled hr wire holds')

/-! ## Fields left out -/

def AllHold (rs : List Record) (inners : List (List Record)) : Prop :=
  List.Forall₂ (fun r inner => r.wire = .delimited ∧ Holds r.value inner) rs inners

theorem Refilled.without_eq {number : Nat} {rs rs' : List Record}
    {inners inners' : List (List Record)} (h : Refilled number rs inners inners' rs') :
    without number rs' = without number rs := by
  induction h with
  | done => rfl
  | other apart later ih => rw [without_cons_other apart, without_cons_other apart, ih]
  | own same wire holds holds' later ih =>
    rw [without_cons_self same, without_cons_self (by exact same), ih]

theorem Refilled.allHold {number : Nat} {rs rs' : List Record}
    {inners inners' : List (List Record)} (h : Refilled number rs inners inners' rs') :
    AllHold (ofNumber number rs) inners ∧ AllHold (ofNumber number rs') inners' := by
  induction h with
  | done => exact ⟨.nil, .nil⟩
  | other apart later ih => rwa [ofNumber_cons_other apart, ofNumber_cons_other apart]
  | own same wire holds holds' later ih =>
    rw [ofNumber_cons_self same, ofNumber_cons_self (by exact same)]
    exact ⟨.cons ⟨wire, holds⟩ ih.1, .cons ⟨wire, holds'⟩ ih.2⟩

theorem Refilled.nil_iff {number : Nat} {rs rs' : List Record}
    {inners inners' : List (List Record)} (h : Refilled number rs inners inners' rs') :
    inners = [] ↔ inners' = [] := by
  induction h with
  | done => exact Iff.rfl
  | other apart later ih => exact ih
  | own same wire holds holds' later ih => simp

end Format

/-- Several records of an embedded message are taken in as one that holds all of their records. -/
theorem Field.optional_takes {α : Type} {schema : Schema α} {budget : Nat}
    (hl : schema.Local budget) {rs : List Record} {inners : List (List Record)}
    (holds : Format.AllHold rs inners) {v w : Option α} :
    (Field.optional schema).Takes (budget + 1) v rs w ↔
      ∃ x, schema.Takes budget (v.getD schema.blank) inners.flatten x ∧
        w = if inners = [] then v else some x := by
  induction holds generalizing v with
  | nil => simp [eq_comm]
  | @cons r inner rs inners hr later ih =>
    have hmerge {u : Option α} : (Field.optional schema).merge (budget + 1) v r.value = .ok (u, [])
        ↔ ∃ x, schema.Takes budget (v.getD schema.blank) inner x ∧ u = some x :=
      (Field.embeds_optional schema).merge_value hl hr.2
    have hlast {x y : α} (hx : schema.Takes budget y inners.flatten x) :
        (if inners = [] then some y else some x) = some x := by
      split
      · rename_i hnil
        subst hnil
        rw [List.flatten_nil, Schema.takes_nil] at hx
        rw [hx]
      · rfl
    simp only [Field.takes_cons, hmerge, ih, List.flatten_cons, Schema.takes_append,
      if_neg (List.cons_ne_nil inner inners)]
    constructor
    · rintro ⟨-, u, ⟨y, hy, rfl⟩, x, hx, rfl⟩
      exact ⟨x, ⟨y, hy, hx⟩, hlast hx⟩
    · rintro ⟨x, ⟨y, hy, hx⟩, rfl⟩
      exact ⟨hr.1, some y, ⟨y, hy, rfl⟩, x, hx, (hlast hx).symm⟩

theorem Field.repeated_takes {α : Type} {schema : Schema α} {budget : Nat} {rs : List Record}
    {as bs : List α} (h : (Field.repeated schema).Takes budget as rs bs) :
    ∃ xs, xs.length = rs.length ∧ bs = as ++ xs ∧
      ∀ as', (Field.repeated schema).Takes budget as' rs (as' ++ xs) := by
  induction h with
  | done as => exact ⟨[], rfl, (List.append_nil as).symm, fun as' => by simp⟩
  | @record as _ _ r rs wire merges later ih =>
    obtain ⟨x, hx, rfl⟩ := (Field.embeds_repeated schema).merge_eq_ok.mp merges
    obtain ⟨xs, hlength, rfl, hlater⟩ := ih
    refine ⟨x :: xs, by simp [hlength], by simp, fun as' => ?_⟩
    have hfront : (Field.repeated schema).merge budget as' r.value = .ok (as' ++ [x], []) :=
      (Field.embeds_repeated schema).merge_eq_ok.mpr ⟨x, hx, rfl⟩
    have hback := hlater (as' ++ [x])
    rw [List.append_assoc, List.singleton_append] at hback
    exact .record wire hfront hback

namespace Format
variable {format : Format ι} {m : ι} {budget : Nat}

theorem optional_takes_zero {α : Type} {schema : Schema α} {v w : Option α} {rs : List Record}
    (h : (Field.optional schema).Takes 0 v rs w) : rs = [] := by
  cases h with
  | done v => rfl
  | record wire merges later =>
    obtain ⟨x, hx, -⟩ := (Field.embeds_optional schema).merge_eq_ok.mp merges
    cases hx

theorem Refilled.optional_takes {α : Type} {schema : Schema α}
    (hl : ∀ budget, schema.Local budget) {number : Nat} {rs rs' : List Record}
    {inners inners' : List (List Record)} (h : Refilled number rs inners inners' rs')
    {f : α → α} (hf : ∀ {budget x}, schema.Takes budget schema.blank inners.flatten x →
      schema.Takes budget schema.blank inners'.flatten (f x)) {v : Option α}
    (htakes : (Field.optional schema).Takes budget none (ofNumber number rs) v) :
    (Field.optional schema).Takes budget none (ofNumber number rs') (v.map f) := by
  obtain ⟨hold, hold'⟩ := h.allHold
  have hnil := h.nil_iff
  cases budget with
  | zero =>
    have hrs := optional_takes_zero htakes
    rw [hrs] at hold htakes
    have hinners := hnil.mp (List.forall₂_nil_left_iff.mp hold)
    rw [hinners] at hold'
    rw [List.forall₂_nil_right_iff.mp hold', ← Field.takes_nil.mp htakes]
    exact .done none
  | succ budget =>
    obtain ⟨x, hx, rfl⟩ := (Field.optional_takes (hl budget) hold).mp htakes
    refine (Field.optional_takes (hl budget) hold').mpr ⟨f x, hf hx, ?_⟩
    by_cases hempty : inners = []
    · rw [if_pos hempty, if_pos (hnil.mp hempty)]
      rfl
    · rw [if_neg hempty, if_neg (fun h => hempty (hnil.mpr h))]
      rfl

theorem repeated_takes_modify {α : Type} {schema : Schema α}
    (hl : ∀ budget, schema.Local budget) {before after inner inner' : List Record} {r r' : Record}
    (wire : r'.wire = r.wire) (holds : Holds r.value inner) (holds' : Holds r'.value inner')
    {f : α → α} (hf : ∀ {budget x}, schema.Takes budget schema.blank inner x →
      schema.Takes budget schema.blank inner' (f x)) {as : List α}
    (htakes : (Field.repeated schema).Takes budget [] (before ++ r :: after) as) :
    (Field.repeated schema).Takes budget [] (before ++ r' :: after)
      (as.modify before.length f) := by
  obtain ⟨xs, hbefore, hrest⟩ := Field.takes_append.mp htakes
  obtain ⟨hwire, ys, hmerge, hafter⟩ := Field.takes_cons.mp hrest
  obtain ⟨xs, hlength, rfl, -⟩ := Field.repeated_takes hbefore
  obtain ⟨x, hx, rfl⟩ := (Field.embeds_repeated schema).merge_eq_ok.mp hmerge
  obtain ⟨zs, -, rfl, hafter'⟩ := Field.repeated_takes hafter
  have hx' : schema.mergeEmbedded budget schema.blank r'.value = .ok (f x, []) := by
    cases budget with
    | zero => cases hx
    | succ budget =>
      have hinner := (Schema.mergeEmbedded_value (hl budget) holds).mp hx
      exact (Schema.mergeEmbedded_value (hl budget) holds').mpr (hf hinner)
  have hmerge' : (Field.repeated schema).merge budget xs r'.value = .ok (xs ++ [f x], []) :=
    (Field.embeds_repeated schema).merge_eq_ok.mpr ⟨f x, hx', rfl⟩
  have hall : (xs ++ [x] ++ zs).modify before.length f = xs ++ [f x] ++ zs := by
    rw [← hlength]
    simp [List.modify_eq_take_drop]
  rw [hall]
  apply Field.takes_append.mpr
  exact ⟨xs, hbefore, .record (wire.trans hwire) hmerge' (hafter' (xs ++ [f x]))⟩

/-- Where several records hold parts of a message, leaving out its field in all of them leaves
it out of the message. -/
theorem Pruned.takes (h : format.Regular) {path : Path} {rs rs' : List Record}
    (pruned : format.Pruned m path rs rs') {f : format.Body m → format.Body m}
    (clears : format.Clears m path f) {b : format.Body m}
    (htakes : (format.schema m).Takes budget (format.schema m).blank rs b) :
    (format.schema m).Takes budget (format.schema m).blank rs' (f b) := by
  induction pruned generalizing budget with
  | here =>
    cases clears with
    | none missing => exact Schema.takes_without_unknown missing htakes
    | here place =>
      have hrest := (place.takes_iff.mp htakes).2
      rwa [place.fresh] at hrest
  | @inside m sub number path rs rs' inners inners' nests refilled inner ih =>
    cases clears with
    | inside nests' place clears =>
      cases nests.symm.trans nests'
      apply place.takes_replace htakes refilled.without_eq
      rw [place.fresh]
      intro hown
      exact refilled.optional_takes (h.local · sub) (ih clears) hown
  | @element m sub path before after inner inner' r value' nests wire holds holds' inner ih =>
    cases clears with
    | element nests' place clears =>
      cases nests.symm.trans nests'
      have hnumber : ({ r with value := value' } : Record).number = r.number := rfl
      have hwire : ({ r with value := value' } : Record).wire = r.wire := rfl
      have hother : without r.number (before ++ { r with value := value' } :: after) =
          without r.number (before ++ r :: after) := by
        rw [without_append, without_append, without_cons_self rfl, without_cons_self hnumber]
      apply place.takes_replace htakes hother
      rw [place.fresh, ofNumber_append, ofNumber_append, ofNumber_cons_self rfl,
        ofNumber_cons_self hnumber]
      intro hown
      exact repeated_takes_modify (h.local · sub) hwire holds holds' (ih clears) hown

theorem Pruned.clears (h : format.Regular) {path : Path} {rs rs' : List Record}
    (pruned : format.Pruned m path rs rs') : ∃ f, format.Clears m path f := by
  induction pruned with
  | @here m number rs =>
    cases h m number with
    | unknown flat missing => exact ⟨id, .none missing⟩
    | scalar flat isLocal place => exact ⟨_, .here place⟩
    | one nests place => exact ⟨_, .here place⟩
    | many nests place => exact ⟨_, .here place⟩
  | @inside m sub number path rs rs' inners inners' nests refilled inner ih =>
    obtain ⟨f, hf⟩ := ih
    cases h m number with
    | unknown flat missing => cases flat.symm.trans nests
    | scalar flat isLocal place => cases flat.symm.trans nests
    | one nests' place =>
      cases nests'.symm.trans nests
      exact ⟨_, .inside nests place hf⟩
    | many nests' place => cases nests'.symm.trans nests
  | @element m sub path before after inner inner' r value' nests wire holds holds' inner ih =>
    obtain ⟨f, hf⟩ := ih
    cases h m r.number with
    | unknown flat missing => cases flat.symm.trans nests
    | scalar flat isLocal place => cases flat.symm.trans nests
    | one nests' place => cases nests'.symm.trans nests
    | many nests' place =>
      cases nests'.symm.trans nests
      exact ⟨_, .element nests place hf⟩

/-! ## Reading changed payloads -/

theorem Regular.read_skewed (h : format.Regular) {rs rs' : List Record}
    (hrs : ∀ r ∈ rs, r.WellFormed)
    (changes : Relation.ReflTransGen (format.Skew m depthLimit) rs rs') {a : format.Body m}
    (hread : (format.schema m).read (joined rs) = .ok a) :
    (format.schema m).read (joined rs') = .ok a := by
  have hl := h.local depthLimit m
  have htakes := (Schema.read_joined hl hrs).mp hread
  exact (Schema.read_joined hl (Skew.wellFormed_all changes hrs)).mpr
    (Skew.takes_all h changes htakes)

theorem Regular.read_pruned (h : format.Regular) {path : Path} {rs rs' : List Record}
    (hrs : ∀ r ∈ rs, r.WellFormed) (pruned : format.Pruned m path rs rs')
    {f : format.Body m → format.Body m} (clears : format.Clears m path f) {a : format.Body m}
    (hread : (format.schema m).read (joined rs) = .ok a) :
    (format.schema m).read (joined rs') = .ok (f a) := by
  have hl := h.local depthLimit m
  have htakes := (Schema.read_joined hl hrs).mp hread
  exact (Schema.read_joined hl (pruned.wellFormed hrs)).mpr (pruned.takes h clears htakes)

end Format
end CargoEvents.Wire
