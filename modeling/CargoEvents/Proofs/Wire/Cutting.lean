import CargoEvents.Proofs.Wire.Skew
import Mathlib.Data.List.Nodup

/-! # Payloads cut short

A field that is no list is written in one record at most. Where each field of a message is, a
payload that is cut off between two records lacks the fields of the records behind the cut, and one
that is cut off anywhere else is no list of records and is not read.
-/
namespace CargoEvents.Wire
variable {α φ ι : Type}

theorem isVarint_writeVarint {n : Nat} (h : n < 2 ^ 64) : IsVarint n (writeVarint n) := by
  obtain ⟨taken, htaken, hsame⟩ := readNumber_eq_ok.mp (readNumber_writeVarint h [])
  rw [List.append_nil, List.append_nil] at hsame
  rwa [hsame]

theorem isKey_writeKey {number : Nat} (h : IsNumber number) (wire : WireType) :
    IsKey number wire (writeKey number wire) :=
  ⟨h, isVarint_writeVarint ((h.key_lt wire).trans (by decide))⟩

/-! ## What is written is records -/

/-- The bytes are those of one record of this number, or there are none. -/
def OneAtMost (number : Nat) (bytes : Bytes) : Prop :=
  bytes = [] ∨ ∃ r : Record, r.WellFormed ∧ r.number = number ∧ bytes = r.bytes

/-- A value is written in one record at most. -/
def Field.Single (field : Field φ) : Prop :=
  ∀ ⦃number : Nat⦄ ⦃v : φ⦄, IsNumber number → field.size number v < 2 ^ 64 →
    OneAtMost number (field.write number v)

def Slot.Single (slot : Slot α) : Prop :=
  ∀ ⦃a : α⦄, slot.size a < 2 ^ 64 → OneAtMost slot.number (slot.write a)

namespace Field

theorem Single.slot {field : Field φ} (h : field.Single) {number : Nat} (hn : IsNumber number)
    (name : String) (get : α → φ) (set : α → φ → α) : (field.slot number name get set).Single :=
  fun _ hs => h hn hs

theorem single_text : text.Single := by
  intro tag v hn hs
  by_cases hv : v = ""
  · simp only [text, if_pos hv]
    exact .inl rfl
  · right
    simp only [text, if_neg hv] at hs ⊢
    have hlength : IsVarint (utf8 v).length (writeVarint v.utf8ByteSize) := by
      rw [utf8_length]
      exact isVarint_writeVarint (by omega)
    exact ⟨⟨tag, .delimited, _, writeVarint v.utf8ByteSize ++ utf8 v⟩,
      ⟨1, isKey_writeKey hn _, _, _, hlength, rfl⟩, rfl, List.append_assoc ..⟩

theorem single_optional {schema : Schema α} {budget : Nat} (h : schema.Lawful budget) :
    (optional schema).Single := by
  intro tag v hn hs
  cases v with
  | none => exact .inl rfl
  | some a =>
    right
    have hinner : schema.size a < 2 ^ 64 := by
      simp only [optional, Option.elim_some, embeddedSize] at hs
      omega
    have hlength : IsVarint (schema.write a).length (writeVarint (schema.size a)) := by
      rw [h.length hinner]
      exact isVarint_writeVarint hinner
    exact ⟨⟨tag, .delimited, _, writeVarint (schema.size a) ++ schema.write a⟩,
      ⟨1, isKey_writeKey hn _, _, _, hlength, rfl⟩, rfl, List.append_assoc ..⟩

end Field

theorem Slot.exists_records {slots : List (Slot α)} (h : ∀ slot ∈ slots, slot.Single) {a : α}
    (hs : slots.foldr (fun slot n => slot.size a + n) 0 < 2 ^ 64) :
    ∃ rs, (∀ r ∈ rs, r.WellFormed) ∧ joined rs = slots.flatMap (·.write a) ∧
      List.Sublist (rs.map (·.number)) (slots.map (·.number)) := by
  induction slots with
  | nil => exact ⟨[], by simp, rfl, .slnil⟩
  | cons slot slots ih =>
    rw [List.foldr_cons] at hs
    obtain ⟨hslot, hlater⟩ := List.forall_mem_cons.mp h
    obtain ⟨rs, hrs, hjoined, hsub⟩ := ih hlater (by omega)
    rw [List.flatMap_cons, List.map_cons, ← hjoined]
    rcases hslot (by omega : slot.size a < 2 ^ 64) with hnone | ⟨r, hr, hnumber, hbytes⟩
    · exact ⟨rs, hrs, by rw [hnone, List.nil_append], hsub.cons _⟩
    · refine ⟨r :: rs, List.forall_mem_cons.mpr ⟨hr, hrs⟩, ?_, ?_⟩
      · rw [hbytes, joined, List.flatMap_cons]
        rfl
      · rw [List.map_cons, hnumber]
        exact hsub.cons_cons _

/-! ## What is read of a payload cut short -/

namespace Format
variable {format : Format ι} {m : ι} {rs : List Record}

/-- A payload is read only if it ends between two records. -/
theorem Regular.read_prefix (h : format.Regular) (hrs : ∀ r ∈ rs, r.WellFormed) {bytes : Bytes}
    (hbytes : bytes <+: joined rs) {a : format.Body m}
    (hread : (format.schema m).read bytes = .ok a) :
    ∃ kept, kept <+: rs ∧ bytes = joined kept := by
  obtain ⟨kept, hkept, rfl, -⟩ := (Schema.read_eq_ok (h.local depthLimit m)).mp hread
  obtain ⟨rest, hrest⟩ := hbytes
  obtain ⟨lost, rfl, -⟩ := joined_prefix hkept hrs hrest.symm
  exact ⟨kept, List.prefix_append .., rfl⟩

theorem without_of_notMem {number : Nat} (h : number ∉ rs.map (·.number)) :
    without number rs = rs := by
  refine List.filter_eq_self.mpr fun r hr => ?_
  have hne : r.number ≠ number := fun hsame => h (hsame ▸ List.mem_map_of_mem hr)
  simpa using hne

theorem Regular.read_kept (h : format.Regular) {clear : format.Body m → Nat → format.Body m}
    (clears : ∀ number, format.Clears m (.here number) (clear · number)) {kept lost : List Record}
    (hrs : ∀ r ∈ kept ++ lost, r.WellFormed)
    (apart : ((kept ++ lost).map (·.number)).Nodup) {a : format.Body m}
    (hread : (format.schema m).read (joined (kept ++ lost)) = .ok a) :
    (format.schema m).read (joined kept) =
      .ok ((lost.map (·.number)).foldl clear a) := by
  induction lost generalizing a with
  | nil => rwa [List.append_nil] at hread
  | cons r lost ih =>
    have hfresh : r.number ∉ (kept ++ lost).map (·.number) := by
      rw [List.map_append, List.map_cons] at apart
      rw [List.map_append]
      exact (List.nodup_cons.mp (List.nodup_middle.mp apart)).1
    have hcut : without r.number (kept ++ r :: lost) = kept ++ lost := by
      rw [without_append, without_cons_self rfl, ← without_append, without_of_notMem hfresh]
    have hpruned : format.Pruned m (.here r.number) (kept ++ r :: lost) (kept ++ lost) :=
      hcut ▸ .here
    have hsub : List.Sublist (kept ++ lost) (kept ++ r :: lost) :=
      (List.sublist_cons_self r lost).append_left kept
    exact ih (fun r' hr' => hrs r' (hsub.subset hr')) (apart.sublist (hsub.map _))
      (h.read_pruned hrs hpruned (clears r.number) hread)

end Format
end CargoEvents.Wire
