import CargoEvents.Proofs.Wire.Grammar
import CargoEvents.Proofs.Wire.Messages

/-! # Messages taken in record by record

A reader of messages works on bytes. Fields and schemas whose readers are local, so that they
take one value and do not look at what follows, work on records: bytes that are read have one
list of records, and reading them is taking in these records one after the other.
-/
namespace CargoEvents.Wire
variable {α β φ : Type}

/-- Reading a value of the field takes the bytes of one and does not depend on what follows. -/
structure Field.Local (field : Field φ) (budget : Nat) : Prop where
  merges : ∀ {v w : φ} {bytes rest : Bytes}, field.merge budget v bytes = .ok (w, rest) ↔
    ∃ value, (∀ number, IsValue 1 number field.wire value) ∧ bytes = value ++ rest ∧
      field.merge budget v value = .ok (w, [])

structure Schema.Local (schema : Schema α) (budget : Nat) : Prop where
  merges : ∀ {a b : α} {number : Nat} {wire : WireType} {bytes rest : Bytes},
    schema.mergeValue budget number wire a bytes = .ok (b, rest) ↔
      ∃ value, (∃ nesting, IsValue nesting number wire value) ∧ bytes = value ++ rest ∧
        schema.mergeValue budget number wire a value = .ok (b, [])

inductive Schema.Takes (schema : Schema α) (budget : Nat) : α → List Record → α → Prop
  | done (a : α) : Schema.Takes schema budget a [] a
  | record {a a' a'' : α} {r : Record} {rs : List Record}
      (merges : schema.mergeValue budget r.number r.wire a r.value = .ok (a', []))
      (later : Schema.Takes schema budget a' rs a'') : Schema.Takes schema budget a (r :: rs) a''

theorem Schema.Takes.append {schema : Schema α} {budget : Nat} {a b c : α} {rs rs' : List Record}
    (h : schema.Takes budget a rs b) (h' : schema.Takes budget b rs' c) :
    schema.Takes budget a (rs ++ rs') c := by
  induction h with
  | done a => exact h'
  | record merges later ih => exact .record merges (ih h')

theorem Schema.takes_append {schema : Schema α} {budget : Nat} {a c : α} {rs rs' : List Record} :
    schema.Takes budget a (rs ++ rs') c ↔
      ∃ b, schema.Takes budget a rs b ∧ schema.Takes budget b rs' c := by
  constructor
  · intro h
    induction rs generalizing a with
    | nil => exact ⟨a, .done a, h⟩
    | cons r rs ih =>
      cases h with
      | record merges later =>
        obtain ⟨b, hfirst, hlast⟩ := ih later
        exact ⟨b, .record merges hfirst, hlast⟩
  · rintro ⟨b, hfirst, hlast⟩
    exact hfirst.append hlast

theorem Schema.takes_cons {schema : Schema α} {budget : Nat} {a c : α} {r : Record}
    {rs : List Record} : schema.Takes budget a (r :: rs) c ↔
      ∃ b, schema.mergeValue budget r.number r.wire a r.value = .ok (b, []) ∧
        schema.Takes budget b rs c := by
  constructor
  · intro h
    cases h with
    | record merges later => exact ⟨_, merges, later⟩
  · rintro ⟨b, merges, later⟩
    exact .record merges later

@[simp] theorem Schema.takes_nil {schema : Schema α} {budget : Nat} {a b : α} :
    schema.Takes budget a [] b ↔ a = b := by
  constructor
  · intro h
    cases h
    rfl
  · rintro rfl
    exact .done a

/-! ## Reading is taking in records -/

theorem Schema.Takes.reads {schema : Schema α} {budget : Nat} (hl : schema.Local budget) {a b : α}
    {rs : List Record} (hrs : ∀ r ∈ rs, r.WellFormed) (h : schema.Takes budget a rs b) :
    schema.Reads budget a (joined rs) b := by
  induction h with
  | done a => exact .done a
  | @record a a' a'' r rs merges later ih =>
    obtain ⟨nesting, hkey, hvalue⟩ := hrs r List.mem_cons_self
    rw [joined_cons, ← List.append_assoc]
    apply Schema.Reads.record
    · exact List.append_ne_nil_of_left_ne_nil hkey.ne_nil _
    · intro rest
      rw [Schema.mergeRecord, List.append_assoc, hkey.readKey]
      exact hl.merges.mpr ⟨r.value, ⟨nesting, hvalue⟩, rfl, merges⟩
    · exact ih fun r' hr' => hrs r' (List.mem_cons_of_mem r hr')

theorem Schema.takes_of_mergeUntil {schema : Schema α} {budget : Nat} (hl : schema.Local budget)
    {left rounds : Nat} {a b : α} {bytes rest : Bytes} (hrounds : bytes.length ≤ rounds)
    (h : schema.mergeUntil budget left rounds a bytes = .ok (b, rest)) :
    ∃ rs, (∀ r ∈ rs, r.WellFormed) ∧ bytes = joined rs ++ rest ∧ rest.length ≤ left ∧
      schema.Takes budget a rs b := by
  have hnone : ∀ r ∈ ([] : List Record), r.WellFormed := fun _ hr => absurd hr List.not_mem_nil
  induction rounds generalizing a bytes with
  | zero =>
    cases h
    exact ⟨[], hnone, rfl, by omega, .done _⟩
  | succ rounds ih =>
    rw [Schema.mergeUntil] at h
    split at h
    · rename_i hleft
      cases h
      exact ⟨[], hnone, rfl, hleft, .done _⟩
    · unfold Schema.mergeRecord at h
      cases hread : readKey bytes with
      | error reason => rw [hread] at h; cases h
      | ok read =>
        obtain ⟨⟨number, wire⟩, bytes'⟩ := read
        obtain ⟨key, hkey, rfl⟩ := readKey_eq_ok.mp hread
        rw [hread] at h
        cases hmerge : schema.mergeValue budget number wire a bytes' with
        | error fault =>
          simp only [hmerge, bind, Except.bind] at h
          cases h
        | ok merged =>
          obtain ⟨a', bytes''⟩ := merged
          simp only [hmerge, bind, Except.bind] at h
          obtain ⟨value, ⟨nesting, hvalue⟩, rfl, hone⟩ := hl.merges.mp hmerge
          have hpos := List.length_pos_iff.mpr hkey.ne_nil
          simp only [List.length_append] at hrounds
          obtain ⟨rs, hrs, rfl, hleft, hlater⟩ := ih (by omega) h
          refine ⟨⟨number, wire, key, value⟩ :: rs, ?_, ?_, hleft, .record hone hlater⟩
          · intro r hr
            cases hr with
            | head => exact ⟨nesting, hkey, hvalue⟩
            | tail _ hr => exact hrs r hr
          · simp only [joined_cons, List.append_assoc]

/-- A payload that is read is cut into records, and reading it is taking them in. -/
theorem Schema.read_eq_ok {schema : Schema α} (hl : schema.Local depthLimit) {bytes : Bytes}
    {a : α} : schema.read bytes = .ok a ↔ ∃ rs, (∀ r ∈ rs, r.WellFormed) ∧ bytes = joined rs ∧
      schema.Takes depthLimit schema.blank rs a := by
  constructor
  · intro h
    unfold Schema.read at h
    cases hmerge : schema.mergeUntil depthLimit 0 bytes.length schema.blank bytes with
    | error fault => rw [hmerge] at h; cases h
    | ok merged =>
      obtain ⟨a', rest⟩ := merged
      rw [hmerge] at h
      cases h
      obtain ⟨rs, hrs, hbytes, hleft, htakes⟩ :=
        Schema.takes_of_mergeUntil hl (Nat.le_refl _) hmerge
      have hnil : rest = [] := List.length_eq_zero_iff.mp (by omega)
      rw [hnil, List.append_nil] at hbytes
      exact ⟨rs, hrs, hbytes, htakes⟩
  · rintro ⟨rs, hrs, rfl, h⟩
    exact (h.reads hl hrs).read

theorem Schema.read_joined {schema : Schema α} (hl : schema.Local depthLimit) {rs : List Record}
    (hrs : ∀ r ∈ rs, r.WellFormed) {a : α} :
    schema.read (joined rs) = .ok a ↔ schema.Takes depthLimit schema.blank rs a := by
  constructor
  · intro h
    obtain ⟨rs', hrs', hsame, htakes⟩ := (Schema.read_eq_ok hl).mp h
    rwa [joined_inj hrs hrs' hsame]
  · intro h
    exact (Schema.read_eq_ok hl).mpr ⟨rs, hrs, rfl, h⟩

/-! ## Embedded messages -/

/-- The value is a length and then these records. -/
structure Holds (value : Bytes) (inner : List Record) : Prop where
  bytes : ∃ length, IsVarint (joined inner).length length ∧ value = length ++ joined inner
  wellFormed : ∀ r ∈ inner, r.WellFormed

theorem holds_of_readNumber {value : Bytes} {inner : List Record} (h : ∀ r ∈ inner, r.WellFormed)
    (hread : readNumber value = .ok ((joined inner).length, joined inner)) : Holds value inner := by
  obtain ⟨length, hlength, hvalue⟩ := readNumber_eq_ok.mp hread
  exact ⟨⟨length, hlength, hvalue⟩, h⟩

theorem Holds.isValue {value : Bytes} {inner : List Record} (h : Holds value inner)
    (budget number : Nat) : IsValue (budget + 1) number .delimited value := by
  obtain ⟨length, hlength, hvalue⟩ := h.bytes
  exact ⟨length, joined inner, hlength, hvalue⟩

theorem Holds.eq {value : Bytes} {inner inner' : List Record} (h : Holds value inner)
    (h' : Holds value inner') : inner = inner' := by
  obtain ⟨length, hlength, rfl⟩ := h.bytes
  obtain ⟨length', hlength', hvalue⟩ := h'.bytes
  have hread := hlength.readNumber (joined inner)
  rw [hvalue, hlength'.readNumber] at hread
  injection hread with hread
  injection hread with _ hsame
  exact joined_inj h.wellFormed h'.wellFormed hsame.symm

theorem Schema.mergeEmbedded_eq_ok {schema : Schema α} {budget : Nat} (hl : schema.Local budget)
    {a b : α} {bytes rest : Bytes} :
    schema.mergeEmbedded (budget + 1) a bytes = .ok (b, rest) ↔ ∃ value inner,
      Holds value inner ∧ bytes = value ++ rest ∧ schema.Takes budget a inner b := by
  constructor
  · intro h
    rw [Schema.mergeEmbedded] at h
    cases hnumber : readNumber bytes with
    | error reason => rw [hnumber] at h; cases h
    | ok read =>
      obtain ⟨count, content⟩ := read
      obtain ⟨length, hlength, rfl⟩ := readNumber_eq_ok.mp hnumber
      rw [hnumber] at h
      dsimp only at h
      split at h
      · cases h
      · rename_i hcount
        cases hmerge : schema.mergeUntil budget (content.length - count) content.length a
            content with
        | error fault => rw [hmerge] at h; cases h
        | ok merged =>
          obtain ⟨b', rest'⟩ := merged
          rw [hmerge] at h
          simp only [bind, Except.bind] at h
          split at h
          · rename_i hleft
            cases h
            obtain ⟨inner, hinner, rfl, -, htakes⟩ :=
              Schema.takes_of_mergeUntil hl (Nat.le_refl _) hmerge
            have hjoined : (joined inner).length = count := by
              rw [List.length_append] at hcount hleft
              omega
            rw [← hjoined] at hlength
            refine ⟨_, inner, ⟨⟨length, hlength, rfl⟩, hinner⟩, ?_, htakes⟩
            rw [List.append_assoc]
          · cases h
  · rintro ⟨_, inner, ⟨⟨length, hlength, rfl⟩, hinner⟩, rfl, h⟩
    exact (h.reads hl hinner).mergeEmbedded hlength.readNumber rest

theorem Schema.mergeEmbedded_value {schema : Schema α} {budget : Nat} (hl : schema.Local budget)
    {a b : α} {value : Bytes} {inner : List Record} (hholds : Holds value inner) :
    schema.mergeEmbedded (budget + 1) a value = .ok (b, []) ↔ schema.Takes budget a inner b := by
  rw [Schema.mergeEmbedded_eq_ok hl]
  constructor
  · rintro ⟨value', inner', hholds', hvalue, htakes⟩
    rw [List.append_nil] at hvalue
    subst hvalue
    rwa [hholds.eq hholds']
  · intro htakes
    exact ⟨value, inner, hholds, (List.append_nil value).symm, htakes⟩

/-- The field holds a message of another type: a record's value is merged into `start` of what
the field held, and `finish` puts the result in its place. -/
structure Field.Embeds (field : Field φ) (schema : Schema β) (start : φ → β)
    (finish : φ → β → φ) : Prop where
  wire : field.wire = .delimited
  merge : ∀ budget v bytes, field.merge budget v bytes =
    (schema.mergeEmbedded budget (start v) bytes).map fun (b, rest) => (finish v b, rest)

theorem Field.embeds_optional (schema : Schema α) :
    (Field.optional schema).Embeds schema (·.getD schema.blank) fun _ a => some a :=
  ⟨rfl, fun _ _ _ => rfl⟩

theorem Field.embeds_repeated (schema : Schema α) :
    (Field.repeated schema).Embeds schema (fun _ => schema.blank) fun as a => as ++ [a] :=
  ⟨rfl, fun _ _ _ => rfl⟩

section Embeds
variable {field : Field φ} {schema : Schema β} {start : φ → β} {finish : φ → β → φ}

theorem Field.Embeds.merge_eq_ok (h : field.Embeds schema start finish) {budget : Nat} {v w : φ}
    {bytes rest : Bytes} : field.merge budget v bytes = .ok (w, rest) ↔
      ∃ b, schema.mergeEmbedded budget (start v) bytes = .ok (b, rest) ∧ w = finish v b := by
  rw [h.merge]
  cases schema.mergeEmbedded budget (start v) bytes with
  | error fault => simp [Except.map]
  | ok merged =>
    obtain ⟨b, rest'⟩ := merged
    simp only [Except.map, Except.ok.injEq, Prod.mk.injEq]
    constructor
    · rintro ⟨rfl, rfl⟩
      exact ⟨b, ⟨rfl, rfl⟩, rfl⟩
    · rintro ⟨_, ⟨rfl, rfl⟩, rfl⟩
      exact ⟨rfl, rfl⟩

theorem Field.Embeds.merge_value (h : field.Embeds schema start finish) {budget : Nat}
    (hl : schema.Local budget) {v w : φ} {value : Bytes} {inner : List Record}
    (hholds : Holds value inner) : field.merge (budget + 1) v value = .ok (w, []) ↔
      ∃ b, schema.Takes budget (start v) inner b ∧ w = finish v b := by
  simp only [h.merge_eq_ok, Schema.mergeEmbedded_value hl hholds]

theorem Field.Embeds.local (h : field.Embeds schema start finish) {budget : Nat}
    (hl : ∀ left, budget = left + 1 → schema.Local left) : field.Local budget := by
  constructor
  intro v w bytes rest
  cases budget with
  | zero => simp [h.merge_eq_ok, Schema.mergeEmbedded]
  | succ left =>
    have hl := hl left rfl
    rw [h.merge_eq_ok, h.wire]
    constructor
    · rintro ⟨b, hmerge, rfl⟩
      obtain ⟨value, inner, hholds, hbytes, htakes⟩ := (Schema.mergeEmbedded_eq_ok hl).mp hmerge
      have hvalue := (Schema.mergeEmbedded_value hl hholds).mpr htakes
      exact ⟨value, hholds.isValue 0, hbytes, h.merge_eq_ok.mpr ⟨b, hvalue, rfl⟩⟩
    · rintro ⟨value, -, rfl, hmerge⟩
      obtain ⟨b, hvalue, rfl⟩ := h.merge_eq_ok.mp hmerge
      obtain ⟨value', inner, hholds, hsame, htakes⟩ := (Schema.mergeEmbedded_eq_ok hl).mp hvalue
      rw [List.append_nil] at hsame
      subst hsame
      exact ⟨b, (Schema.mergeEmbedded_eq_ok hl).mpr ⟨value, inner, hholds, rfl, htakes⟩, rfl⟩

end Embeds

/-! ## Scalars -/

namespace Field

theorem lift_eq_ok {read : Except Reason (φ × Bytes)} {v : φ} {rest : Bytes} :
    lift read = .ok (v, rest) ↔ read = .ok (v, rest) := by
  cases read with
  | error reason => simp [lift, Except.mapError]
  | ok read => simp [lift, Except.mapError]

theorem merge_number [DecidableEq φ] {blank v w : φ} {toNat : φ → Nat} {ofNat : Nat → φ}
    {budget : Nat} {bytes rest : Bytes} :
    (number blank toNat ofNat).merge budget v bytes = .ok (w, rest) ↔
      ∃ n, readNumber bytes = .ok (n, rest) ∧ ofNat n = w := by
  refine lift_eq_ok.trans ?_
  cases readNumber bytes with
  | error reason => simp [Except.map]
  | ok read =>
    obtain ⟨n, rest'⟩ := read
    simp only [Except.map, Except.ok.injEq, Prod.mk.injEq]
    constructor
    · rintro ⟨rfl, rfl⟩
      exact ⟨n, ⟨rfl, rfl⟩, rfl⟩
    · rintro ⟨_, ⟨rfl, rfl⟩, rfl⟩
      exact ⟨rfl, rfl⟩

theorem local_number [DecidableEq φ] (blank : φ) (toNat : φ → Nat) (ofNat : Nat → φ)
    (budget : Nat) : (number blank toNat ofNat).Local budget := by
  constructor
  intro v w bytes rest
  rw [merge_number]
  constructor
  · rintro ⟨n, hread, hw⟩
    obtain ⟨value, hvalue, rfl⟩ := readNumber_eq_ok.mp hread
    refine ⟨value, fun _ => ⟨n, hvalue⟩, rfl, merge_number.mpr ⟨n, ?_, hw⟩⟩
    exact readNumber_eq_ok.mpr ⟨value, hvalue, (List.append_nil value).symm⟩
  · rintro ⟨value, -, rfl, hmerge⟩
    obtain ⟨n, hread, hw⟩ := merge_number.mp hmerge
    obtain ⟨taken, htaken, hvalue⟩ := readNumber_eq_ok.mp hread
    rw [List.append_nil] at hvalue
    subst hvalue
    exact ⟨n, htaken.readNumber rest, hw⟩

theorem merge_text {budget : Nat} {v w : String} {bytes rest : Bytes} :
    text.merge budget v bytes = .ok (w, rest) ↔
      ∃ content, readDelimited bytes = .ok (content, rest) ∧ ofUtf8? content = some w := by
  refine lift_eq_ok.trans ?_
  cases readDelimited bytes with
  | error reason => simp [bind, Except.bind]
  | ok read =>
    obtain ⟨content, rest'⟩ := read
    simp only [bind, Except.bind]
    cases hutf8 : ofUtf8? content with
    | none => simp [hutf8]
    | some v' => simp [hutf8, and_comm]

theorem local_text (budget : Nat) : text.Local budget := by
  constructor
  intro v w bytes rest
  rw [merge_text]
  constructor
  · rintro ⟨content, hread, hw⟩
    obtain ⟨length, hlength, rfl⟩ := readDelimited_eq_ok.mp hread
    refine ⟨length ++ content, fun _ => ⟨length, content, hlength, rfl⟩, rfl,
      merge_text.mpr ⟨content, ?_, hw⟩⟩
    exact readDelimited_eq_ok.mpr ⟨length, hlength, (List.append_nil _).symm⟩
  · rintro ⟨value, -, rfl, hmerge⟩
    obtain ⟨content, hread, hw⟩ := merge_text.mp hmerge
    obtain ⟨length, hlength, hvalue⟩ := readDelimited_eq_ok.mp hread
    rw [List.append_nil] at hvalue
    subst hvalue
    exact ⟨content, readDelimited_eq_ok.mpr ⟨length, hlength, rfl⟩, hw⟩

end Field
end CargoEvents.Wire
