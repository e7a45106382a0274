import CargoEvents.Proofs.Wire.Messages

/-! # Messages written one after the other

Reading goes on from the value that the earlier records left, at every depth. So what is written of
one message after another is read as the two joined: field by field, and a message that both embed
by the same rule again.
-/
namespace CargoEvents.Wire
variable {α φ : Type}

/-- What the schema writes of `b` takes any message `a` to `join a b`. -/
def Schema.Joins (schema : Schema α) (budget : Nat) (join : α → α → α) : Prop :=
  ∀ (a : α) {b : α}, schema.size b < 2 ^ 64 → schema.Reads budget a (schema.write b) (join a b)

namespace Schema
variable {schema : Schema α} {budget : Nat}

theorem Joins.read {join : α → α → α} (h : schema.Joins depthLimit join)
    (lawful : schema.Lawful depthLimit) {a b : α} (ha : schema.size a < 2 ^ 64)
    (hb : schema.size b < 2 ^ 64) :
    schema.read (schema.write a ++ schema.write b) = .ok (join a b) :=
  ((lawful.reads ha).append (h a hb)).read

theorem Joins.optional {join : α → α → α} (h : schema.Joins budget join)
    (lawful : schema.Lawful budget) :
    (Field.optional schema).Joins (budget + 1) (Option.merge join) := by
  intro tag v w hs
  cases w with
  | none =>
    rw [Option.merge_none_right]
    exact .done v
  | some b =>
    have hinner : schema.size b < 2 ^ 64 := by
      simp only [Field.optional, Option.elim_some, Field.embeddedSize] at hs
      omega
    simp only [Field.optional, Option.elim_some, Field.writeEmbedded, List.append_assoc]
    apply Field.Reads.single
    intro rest
    cases v with
    | none => simp only [Option.getD_none, lawful.mergeEmbedded hinner, Except.map, Option.merge]
    | some a =>
      have hmerge := lawful.mergeEmbedded_write hinner (h a hinner) rest
      simp only [Option.getD_some, hmerge, Except.map, Option.merge]

/-- What these slots write of `b` takes message `a`, slot by slot, to `c`. -/
inductive Gathers (schema : Schema α) (budget : Nat) (b c : α) : α → List (Slot α) → Prop
  | done : Gathers schema budget b c c []
  | slot {a : α} {φ : Type} {field : Field φ} {number : Nat} {name : String} {get : α → φ}
      {set : α → φ → α} {slots : List (Slot α)} {join : φ → φ → φ}
      (joins : field.Joins budget join)
      (opens : schema.Opens field number name get set schema.blank)
      (later : Gathers schema budget b c (set a (join (get a) (get b))) slots) :
      Gathers schema budget b c a (field.slot number name get set :: slots)

theorem Gathers.reads {a b c : α} {slots : List (Slot α)}
    (h : schema.Gathers budget b c a slots)
    (hs : slots.foldr (fun slot n => slot.size b + n) 0 < 2 ^ 64) :
    schema.Reads budget a (slots.flatMap (·.write b)) c := by
  induction h with
  | done => exact .done c
  | @slot a φ field number name get set slots join joins opens later ih =>
    simp only [List.foldr_cons, Field.slot] at hs
    have hfield := joins number (get a) (w := get b) (by omega)
    rw [List.flatMap_cons]
    exact (hfield.ofSlot opens).append (ih (by omega))

theorem joins_of_gathers {join : α → α → α}
    (h : ∀ a b, schema.Gathers budget b (join a b) a schema.slots) : schema.Joins budget join :=
  fun a _ hs => (h a _).reads hs

end Schema
end CargoEvents.Wire
