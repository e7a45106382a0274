import CargoEvents.Proofs.Wire.Numbers
import CargoEvents.Wire.Schema

/-! # Messages read back

Reading takes one record after the other, each of which changes the message so far.
`Reads` follows it: over a field's records the field's value changes, over a message's
records the message does. What a lawful field writes takes its blank value to the value
written, so what a lawful schema writes takes the blank message, slot by slot, to the
message written. The budget of nested messages goes down by one at each level.
-/
namespace CargoEvents.Wire
variable {α φ : Type}

/-- The records of field `number` in these bytes take the field's value from one to another. -/
inductive Field.Reads (field : Field φ) (number budget : Nat) : φ → Bytes → φ → Prop
  | done (v : φ) : Field.Reads field number budget v [] v
  | record {v v' v'' : φ} {content more : Bytes}
      (merges : ∀ rest, field.merge budget v (content ++ rest) = .ok (v', rest))
      (later : Field.Reads field number budget v' more v'') :
      Field.Reads field number budget v (writeKey number field.wire ++ content ++ more) v''

/-- What the field writes reads back within the budget, and is as long as it is said to be. -/
structure Field.Lawful (field : Field φ) (budget : Nat) : Prop where
  reads : ∀ (number : Nat) {v : φ}, field.size number v < 2 ^ 64 →
    field.Reads number budget field.blank (field.write number v) v
  length : ∀ {number : Nat} {v : φ}, IsNumber number → field.size number v < 2 ^ 64 →
    (field.write number v).length = field.size number v

def Field.Joins (field : Field φ) (budget : Nat) (join : φ → φ → φ) : Prop :=
  ∀ (number : Nat) (v : φ) {w : φ}, field.size number w < 2 ^ 64 →
    field.Reads number budget v (field.write number w) (join v w)

/-- The records in these bytes take a message from one value to another. -/
inductive Schema.Reads (schema : Schema α) (budget : Nat) : α → Bytes → α → Prop
  | done (a : α) : Schema.Reads schema budget a [] a
  | record {a a' a'' : α} {record more : Bytes} (nonempty : record ≠ [])
      (merges : ∀ rest, schema.mergeRecord budget a (record ++ rest) = .ok (a', rest))
      (later : Schema.Reads schema budget a' more a'') :
      Schema.Reads schema budget a (record ++ more) a''

structure Schema.Lawful (schema : Schema α) (budget : Nat) : Prop where
  reads : ∀ {a : α}, schema.size a < 2 ^ 64 →
    schema.Reads budget schema.blank (schema.write a) a
  length : ∀ {a : α}, schema.size a < 2 ^ 64 → (schema.write a).length = schema.size a

/-! ## Messages -/

theorem Schema.Reads.append {schema : Schema α} {budget : Nat} {a b c : α} {xs ys : Bytes}
    (h : schema.Reads budget a xs b) (h' : schema.Reads budget b ys c) :
    schema.Reads budget a (xs ++ ys) c := by
  induction h with
  | done a => exact h'
  | record nonempty merges later ih =>
    rw [List.append_assoc]
    exact .record nonempty merges (ih h')

/-- Reading stops where the records end. Every record takes a byte at least, so that many
rounds are enough. -/
theorem Schema.Reads.mergeUntil {schema : Schema α} {budget : Nat} {a b : α} {bytes : Bytes}
    (h : schema.Reads budget a bytes b) (rest : Bytes) (rounds : Nat)
    (hr : bytes.length ≤ rounds) :
    schema.mergeUntil budget rest.length rounds a (bytes ++ rest) = .ok (b, rest) := by
  induction h generalizing rounds with
  | done a =>
    cases rounds with
    | zero => rfl
    | succ rounds => rw [List.nil_append, Schema.mergeUntil, if_pos (Nat.le_refl _)]
  | @record a a' a'' record more nonempty merges later ih =>
    have hpos : 0 < record.length := List.length_pos_iff.mpr nonempty
    rw [List.length_append] at hr
    obtain ⟨rounds, rfl⟩ : ∃ n, rounds = n + 1 := ⟨rounds - 1, by omega⟩
    have hleft : ¬(record ++ more ++ rest).length ≤ rest.length := by
      simp only [List.length_append]
      omega
    rw [Schema.mergeUntil, if_neg hleft, List.append_assoc, merges]
    exact ih rounds (by omega)

theorem Schema.Reads.read {schema : Schema α} {a : α} {bytes : Bytes}
    (h : schema.Reads depthLimit schema.blank bytes a) : schema.read bytes = .ok a := by
  have hmerge := h.mergeUntil [] _ (Nat.le_refl _)
  rw [List.append_nil, List.length_nil] at hmerge
  rw [Schema.read, hmerge]
  rfl

theorem Schema.Lawful.read {schema : Schema α} (h : schema.Lawful depthLimit) {a : α}
    (hs : schema.size a < 2 ^ 64) : schema.read (schema.write a) = .ok a := (h.reads hs).read

theorem Schema.Reads.mergeEmbedded {schema : Schema α} {budget : Nat} {a b : α}
    {length bytes : Bytes} (h : schema.Reads budget a bytes b)
    (hlength : ∀ rest, readNumber (length ++ rest) = .ok (bytes.length, rest)) (rest : Bytes) :
    schema.mergeEmbedded (budget + 1) a (length ++ bytes ++ rest) = .ok (b, rest) := by
  have hall : (bytes ++ rest).length = bytes.length + rest.length := List.length_append
  have hleft : (bytes ++ rest).length - bytes.length = rest.length := by omega
  have hmerge := h.mergeUntil rest (bytes ++ rest).length (by omega)
  rw [List.append_assoc, Schema.mergeEmbedded, hlength]
  dsimp only
  rw [if_neg (by omega), hleft, hmerge]
  exact if_pos rfl

theorem Schema.Lawful.mergeEmbedded_write {schema : Schema α} {budget : Nat}
    (h : schema.Lawful budget) {a b c : α} (hs : schema.size b < 2 ^ 64)
    (hreads : schema.Reads budget a (schema.write b) c) (rest : Bytes) :
    schema.mergeEmbedded (budget + 1) a
      (writeVarint (schema.size b) ++ schema.write b ++ rest) = .ok (c, rest) := by
  refine hreads.mergeEmbedded (fun rest => ?_) rest
  rw [readNumber_writeVarint hs, h.length hs]

theorem Schema.Lawful.mergeEmbedded {schema : Schema α} {budget : Nat} (h : schema.Lawful budget)
    {a : α} (hs : schema.size a < 2 ^ 64) (rest : Bytes) :
    schema.mergeEmbedded (budget + 1) schema.blank
      (writeVarint (schema.size a) ++ schema.write a ++ rest) = .ok (a, rest) :=
  h.mergeEmbedded_write hs (h.reads hs) rest

/-! ## Fields -/

namespace Field

theorem Reads.single {field : Field φ} {number budget : Nat} {v v' : φ} {content : Bytes}
    (merges : ∀ rest, field.merge budget v (content ++ rest) = .ok (v', rest)) :
    field.Reads number budget v (writeKey number field.wire ++ content) v' := by
  have h : field.Reads number budget v (writeKey number field.wire ++ content ++ []) v' :=
    .record merges (.done v')
  rwa [List.append_nil] at h

theorem Joins.reads_blank {field : Field φ} {budget : Nat} {join : φ → φ → φ}
    (h : field.Joins budget join) (unit : ∀ v, join field.blank v = v) (number : Nat) {v : φ}
    (hs : field.size number v < 2 ^ 64) :
    field.Reads number budget field.blank (field.write number v) v := by
  have hreads := h number field.blank hs
  rwa [unit] at hreads

/-- Of two scalars the second, unless it is the default, which is not written. -/
def latest [DecidableEq φ] (blank v w : φ) : φ := if w = blank then v else w

@[simp] theorem latest_blank [DecidableEq φ] (blank v : φ) : latest blank v blank = v := if_pos rfl

@[simp] theorem blank_latest [DecidableEq φ] (blank w : φ) : latest blank blank w = w := by
  unfold latest
  split
  · rename_i hw
    exact hw.symm
  · rfl

theorem latest_assoc [DecidableEq φ] (blank u v w : φ) :
    latest blank (latest blank u v) w = latest blank u (latest blank v w) := by
  by_cases hw : w = blank
  · rw [hw, latest_blank, latest_blank]
  · simp only [latest, if_neg hw]

theorem joins_number [DecidableEq φ] {blank : φ} {toNat : φ → Nat} {ofNat : Nat → φ}
    (inverse : ∀ v, ofNat (toNat v) = v) (small : ∀ v, toNat v < 2 ^ 64) (budget : Nat) :
    (number blank toNat ofNat).Joins budget (latest blank) := by
  intro tag v w _
  simp only [number, latest]
  split
  · exact .done v
  · apply Reads.single
    intro rest
    simp only [lift, readNumber_writeVarint (small w), inverse, Except.map, Except.mapError]

theorem lawful_number [DecidableEq φ] {blank : φ} {toNat : φ → Nat} {ofNat : Nat → φ}
    (inverse : ∀ v, ofNat (toNat v) = v) (small : ∀ v, toNat v < 2 ^ 64) (budget : Nat) :
    (number blank toNat ofNat).Lawful budget := by
  constructor
  · exact (joins_number inverse small budget).reads_blank (blank_latest blank)
  · intro tag v hn _
    simp only [number]
    split
    · rfl
    · rw [List.length_append, writeKey_length hn, writeVarint_length (small v)]

theorem int32_inverse (v : Int32) : (UInt32.ofNat v.toInt64.toUInt64.toNat).toInt32 = v := by
  have hlow : UInt32.ofNat v.toInt64.toUInt64.toNat = v.toInt64.toUInt64.toUInt32 := by
    apply UInt32.toNat_inj.mp
    simp
  rw [hlow]
  apply Int32.toBitVec_inj.mp
  simp only [UInt32.toBitVec_toInt32, UInt64.toBitVec_toUInt32, Int64.toBitVec_toUInt64,
    Int32.toBitVec_toInt64]
  ext i hi
  have hwide : i < 64 := by omega
  rw [BitVec.getElem_setWidth, BitVec.getLsbD_signExtend]
  simp [hi, hwide]

section Scalars
variable (budget : Nat)

theorem joins_int32 : int32.Joins budget (latest 0) :=
  joins_number int32_inverse (fun v => v.toInt64.toUInt64.toNat_lt) budget

theorem lawful_int32 : int32.Lawful budget :=
  lawful_number int32_inverse (fun v => v.toInt64.toUInt64.toNat_lt) budget

theorem joins_int64 : int64.Joins budget (latest 0) :=
  joins_number (fun v => by simp) (fun v => v.toUInt64.toNat_lt) budget

theorem lawful_int64 : int64.Lawful budget :=
  lawful_number (fun v => by simp) (fun v => v.toUInt64.toNat_lt) budget

theorem joins_bool : bool.Joins budget (latest false) :=
  joins_number (fun v => by cases v <;> rfl) (fun v => by cases v <;> decide) budget

theorem lawful_bool : bool.Lawful budget :=
  lawful_number (fun v => by cases v <;> rfl) (fun v => by cases v <;> decide) budget

end Scalars

theorem utf8_length (s : String) : (utf8 s).length = s.utf8ByteSize := by
  simp [utf8]

theorem ofUtf8?_utf8 (s : String) : ofUtf8? (utf8 s) = some s := by
  have hvalid : (⟨(utf8 s).toArray⟩ : ByteArray).IsValidUTF8 := by
    simpa [utf8] using s.isValidUTF8
  simp only [ofUtf8?, String.fromUTF8?, dif_pos hvalid]
  simp [utf8, String.fromUTF8]

theorem joins_text (budget : Nat) : text.Joins budget (latest "") := by
  intro tag v w hs
  by_cases hw : w = ""
  · subst hw
    exact .done v
  · simp only [text, latest, if_neg hw] at hs ⊢
    have hlength : (utf8 w).length < 2 ^ 64 := by
      rw [utf8_length]
      omega
    rw [List.append_assoc]
    apply Reads.single
    intro rest
    rw [← utf8_length]
    simp only [lift, readDelimited_append hlength, bind, Except.bind, ofUtf8?_utf8]
    rfl

theorem lawful_text (budget : Nat) : text.Lawful budget := by
  constructor
  · exact (joins_text budget).reads_blank (blank_latest "")
  · intro tag v hn hs
    by_cases hv : v = ""
    · simp only [text, if_pos hv, List.length_nil]
    · simp only [text, if_neg hv] at hs ⊢
      rw [List.length_append, List.length_append, writeKey_length hn,
        writeVarint_length (by omega), utf8_length]

theorem writeEmbedded_length {schema : Schema α} {budget : Nat} (h : schema.Lawful budget)
    {tag : Nat} (hn : IsNumber tag) {a : α} (hs : embeddedSize schema tag a < 2 ^ 64) :
    (writeEmbedded schema tag a).length = embeddedSize schema tag a := by
  have hinner : schema.size a < 2 ^ 64 := by
    rw [embeddedSize] at hs
    omega
  rw [writeEmbedded, List.length_append, List.length_append, writeKey_length hn,
    writeVarint_length hinner, h.length hinner, embeddedSize]

end Field

theorem Schema.Lawful.optional {schema : Schema α} {budget : Nat} (h : schema.Lawful budget) :
    (Field.optional schema).Lawful (budget + 1) := by
  constructor
  · intro tag v hs
    cases v with
    | none => exact .done _
    | some a =>
      have hinner : schema.size a < 2 ^ 64 := by
        simp only [Field.optional, Option.elim_some, Field.embeddedSize] at hs
        omega
      simp only [Field.optional, Option.elim_some, Field.writeEmbedded, List.append_assoc]
      apply Field.Reads.single
      intro rest
      simp only [Option.getD_none, h.mergeEmbedded hinner, Except.map]
  · intro tag v hn hs
    cases v with
    | none => rfl
    | some a => exact Field.writeEmbedded_length h hn hs

theorem Field.size_repeated_cons {schema : Schema α} {tag : Nat} {a : α} {as : List α}
    (hs : (Field.repeated schema).size tag (a :: as) < 2 ^ 64) :
    Field.embeddedSize schema tag a < 2 ^ 64 ∧ (Field.repeated schema).size tag as < 2 ^ 64 := by
  simp only [Field.repeated, List.foldr_cons] at hs ⊢
  omega

theorem Schema.Lawful.joins_repeated {schema : Schema α} {budget : Nat}
    (h : schema.Lawful budget) : (Field.repeated schema).Joins (budget + 1) (· ++ ·) := by
  intro tag before as hs
  change (Field.repeated schema).Reads tag (budget + 1) before _ (before ++ as)
  induction as generalizing before with
  | nil =>
    rw [List.append_nil]
    exact .done before
  | cons a as ih =>
    obtain ⟨hone, hall⟩ := Field.size_repeated_cons hs
    have hinner : schema.size a < 2 ^ 64 := by
      rw [Field.embeddedSize] at hone
      omega
    have hlater := ih (before ++ [a]) hall
    rw [List.append_assoc, List.singleton_append] at hlater
    have hrecord : (Field.repeated schema).write tag (a :: as) =
        writeKey tag .delimited ++ (writeVarint (schema.size a) ++ schema.write a) ++
          (Field.repeated schema).write tag as := by
      simp only [Field.repeated, List.flatMap_cons, Field.writeEmbedded, List.append_assoc]
    rw [hrecord]
    apply Field.Reads.record _ hlater
    intro rest
    simp only [Field.repeated, h.mergeEmbedded hinner, Except.map]

theorem Schema.Lawful.repeated {schema : Schema α} {budget : Nat} (h : schema.Lawful budget) :
    (Field.repeated schema).Lawful (budget + 1) := by
  constructor
  · exact h.joins_repeated.reads_blank List.nil_append
  · intro tag as hn hs
    induction as with
    | nil => rfl
    | cons a as ih =>
      obtain ⟨hone, hall⟩ := Field.size_repeated_cons hs
      have hlength := ih hall
      simp only [Field.repeated] at hlength ⊢
      rw [List.flatMap_cons, List.length_append, hlength, List.foldr_cons,
        Field.writeEmbedded_length h hn hone]

/-! ## Slots -/

/-- The field has a slot of its own that can be set alone, and is blank in message `b`. -/
structure Schema.Opens (schema : Schema α) (field : Field φ) (number : Nat) (name : String)
    (get : α → φ) (set : α → φ → α) (b : α) : Prop where
  numbered : IsNumber number
  found : schema.slot? number = some (field.slot number name get set)
  get_set : ∀ a v, get (set a v) = v
  set_set : ∀ a v w, set (set a v) w = set a w
  set_get : ∀ a, set a (get a) = a
  fresh : get b = field.blank

theorem Field.Reads.inSlot {schema : Schema α} {field : Field φ} {number budget : Nat}
    {name : String} {get : α → φ} {set : α → φ → α} {b : α}
    (opens : schema.Opens field number name get set b) {v w : φ} {bytes : Bytes}
    (h : field.Reads number budget v bytes w) (a : α) :
    schema.Reads budget (set a v) bytes (set a w) := by
  induction h with
  | done v => exact .done _
  | @record v v' v'' content more merges later ih =>
    have hkey : writeKey number field.wire ≠ [] := by
      apply List.ne_nil_of_length_pos
      rw [writeKey_length opens.numbered]
      exact varintSize_pos _
    apply Schema.Reads.record (List.append_ne_nil_of_left_ne_nil hkey content) _ ih
    intro rest
    rw [List.append_assoc, Schema.mergeRecord, readKey_writeKey opens.numbered]
    simp only [Schema.mergeValue, opens.found, Field.slot, if_true, opens.get_set, merges,
      Except.map, Except.mapError, opens.set_set]

theorem Field.Reads.ofSlot {schema : Schema α} {field : Field φ} {number budget : Nat}
    {name : String} {get : α → φ} {set : α → φ → α} {b : α}
    (opens : schema.Opens field number name get set b) {a : α} {w : φ} {bytes : Bytes}
    (h : field.Reads number budget (get a) bytes w) : schema.Reads budget a bytes (set a w) := by
  have hslot := h.inSlot opens a
  rwa [opens.set_get] at hslot

/-- With these slots still to be read, message `b` has become `a` but for what they write. -/
inductive Schema.Fills (schema : Schema α) (budget : Nat) (a : α) : α → List (Slot α) → Prop
  | done : Schema.Fills schema budget a a []
  | slot {b : α} {φ : Type} {field : Field φ} {number : Nat} {name : String} {get : α → φ}
      {set : α → φ → α} {slots : List (Slot α)} (lawful : field.Lawful budget)
      (opens : schema.Opens field number name get set b)
      (later : Schema.Fills schema budget a (set b (get a)) slots) :
      Schema.Fills schema budget a b (field.slot number name get set :: slots)

theorem Schema.Fills.reads {schema : Schema α} {budget : Nat} {a b : α} {slots : List (Slot α)}
    (h : schema.Fills budget a b slots)
    (hs : slots.foldr (fun slot n => slot.size a + n) 0 < 2 ^ 64) :
    schema.Reads budget b (slots.flatMap (·.write a)) a := by
  induction h with
  | done => exact .done a
  | @slot b φ field number name get set slots lawful opens later ih =>
    simp only [List.foldr_cons, Field.slot] at hs
    have hfield := lawful.reads number (v := get a) (by omega)
    rw [← opens.fresh] at hfield
    rw [List.flatMap_cons]
    exact (hfield.ofSlot opens).append (ih (by omega))

theorem Schema.Fills.length {schema : Schema α} {budget : Nat} {a b : α} {slots : List (Slot α)}
    (h : schema.Fills budget a b slots)
    (hs : slots.foldr (fun slot n => slot.size a + n) 0 < 2 ^ 64) :
    (slots.flatMap (·.write a)).length = slots.foldr (fun slot n => slot.size a + n) 0 := by
  induction h with
  | done => rfl
  | @slot b φ field number name get set slots lawful opens later ih =>
    simp only [List.foldr_cons, Field.slot] at hs
    have hfield := lawful.length (v := get a) opens.numbered (by omega)
    have hrest := ih (by omega)
    rw [List.flatMap_cons, List.length_append, hrest, List.foldr_cons]
    simp only [Field.slot, hfield]

theorem Schema.lawful_of_fills {schema : Schema α} {budget : Nat}
    (h : ∀ a, schema.Fills budget a schema.blank schema.slots) : schema.Lawful budget :=
  ⟨fun hs => (h _).reads hs, fun hs => (h _).length hs⟩

end CargoEvents.Wire
