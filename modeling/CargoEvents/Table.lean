/-! # Tables keyed by text

Entries stand in increasing order of their keys, so a table is determined by what it
finds: `Table.ext_get?`. Text is compared by code points.
-/
namespace CargoEvents

structure Table (α : Type) where
  entries : List (String × α)
  increasing : entries.Pairwise fun a b => a.1 < b.1

namespace Table
variable {α : Type}

theorem eq_of_entries {s t : Table α} (h : s.entries = t.entries) : s = t := by
  cases s; cases t; cases h; rfl

instance [DecidableEq α] : DecidableEq (Table α) := fun s t =>
  decidable_of_iff (s.entries = t.entries) ⟨eq_of_entries, fun h => h ▸ rfl⟩

def empty : Table α := ⟨[], .nil⟩

instance : EmptyCollection (Table α) := ⟨empty⟩
instance : Inhabited (Table α) := ⟨empty⟩

def find (key : String) (entries : List (String × α)) : Option α :=
  (entries.find? (·.1 == key)).map (·.2)

def get? (t : Table α) (key : String) : Option α := find key t.entries
def contains (t : Table α) (key : String) : Bool := (t.get? key).isSome
def keys (t : Table α) : List String := t.entries.map (·.1)
def values (t : Table α) : List α := t.entries.map (·.2)
def size (t : Table α) : Nat := t.entries.length

def place (key : String) (value : α) : List (String × α) → List (String × α)
  | [] => [(key, value)]
  | e :: rest =>
    if key < e.1 then (key, value) :: e :: rest
    else if e.1 < key then e :: place key value rest
    else (key, value) :: rest

theorem mem_place {key : String} {value : α} {entries : List (String × α)} {e : String × α}
    (h : e ∈ place key value entries) : e = (key, value) ∨ e ∈ entries := by
  induction entries with
  | nil => simpa [place] using h
  | cons d rest ih =>
    simp only [place] at h
    split at h
    · simpa using h
    · split at h
      · rcases List.mem_cons.mp h with rfl | h
        · exact .inr (List.mem_cons_self ..)
        · exact (ih h).imp_right (List.mem_cons_of_mem _)
      · rcases List.mem_cons.mp h with rfl | h
        · exact .inl rfl
        · exact .inr (List.mem_cons_of_mem _ h)

theorem eq_of_not_lt {a b : String} (h : ¬a < b) (g : ¬b < a) : a = b :=
  String.le_antisymm (String.not_lt.mp g) (String.not_lt.mp h)

theorem place_increasing {key : String} {value : α} {entries : List (String × α)}
    (h : entries.Pairwise fun a b => a.1 < b.1) :
    (place key value entries).Pairwise fun a b => a.1 < b.1 := by
  induction entries with
  | nil => simp [place]
  | cons d rest ih =>
    obtain ⟨hd, hrest⟩ := List.pairwise_cons.mp h
    simp only [place]
    split
    · rename_i hlt
      refine List.pairwise_cons.mpr ⟨fun e he => ?_, h⟩
      rcases List.mem_cons.mp he with rfl | he
      · exact hlt
      · exact String.lt_trans hlt (hd e he)
    · rename_i hge
      split
      · rename_i hlt
        refine List.pairwise_cons.mpr ⟨fun e he => ?_, ih hrest⟩
        rcases mem_place he with rfl | he
        · exact hlt
        · exact hd e he
      · rename_i hle
        refine List.pairwise_cons.mpr ⟨fun e he => ?_, hrest⟩
        rw [eq_of_not_lt hge hle]
        exact hd e he

def insert (t : Table α) (key : String) (value : α) : Table α :=
  ⟨place key value t.entries, place_increasing t.increasing⟩

def erase (t : Table α) (key : String) : Table α :=
  ⟨t.entries.filter (·.1 != key), t.increasing.filter _⟩

def change (key : String) (f : α → α) (e : String × α) : String × α :=
  if e.1 = key then (e.1, f e.2) else e

@[simp] theorem change_fst (key : String) (f : α → α) (e : String × α) :
    (change key f e).1 = e.1 := by
  unfold change; split <;> rfl

def modify (t : Table α) (key : String) (f : α → α) : Table α :=
  ⟨t.entries.map (change key f), by
    rw [List.pairwise_map]; simpa using t.increasing⟩

def mapValues (t : Table α) (f : String → α → α) : Table α :=
  ⟨t.entries.map fun e => (e.1, f e.1 e.2), by
    rw [List.pairwise_map]; exact t.increasing⟩

theorem keys_increasing (t : Table α) : t.keys.Pairwise (· < ·) :=
  List.pairwise_map.mpr t.increasing

theorem find_cons (key : String) (e : String × α) (rest : List (String × α)) :
    find key (e :: rest) = if e.1 = key then some e.2 else find key rest := by
  unfold find
  by_cases h : e.1 = key <;> simp [h]

theorem find_place (key k : String) (value : α) (entries : List (String × α)) :
    find k (place key value entries) = if k = key then some value else find k entries := by
  induction entries with
  | nil => simp only [place, find_cons]; simp [find, eq_comm]
  | cons e rest ih =>
    simp only [place]
    split
    · simp only [find_cons, eq_comm (a := key)]
    · rename_i hge
      split
      · rename_i hlt
        simp only [find_cons, ih]
        by_cases hk : k = key
        · subst hk
          simp [show e.1 ≠ k from fun h => String.lt_irrefl k (h ▸ hlt)]
        · simp [hk]
      · rename_i hle
        have he : key = e.1 := eq_of_not_lt hge hle
        simp only [find_cons]
        by_cases hk : k = key
        · simp [hk]
        · simp [hk, ← he, eq_comm (a := key)]

@[simp] theorem get?_empty (k : String) : (∅ : Table α).get? k = none := rfl

@[simp] theorem get?_insert (t : Table α) (key k : String) (value : α) :
    (t.insert key value).get? k = if k = key then some value else t.get? k :=
  find_place key k value t.entries

@[simp] theorem get?_erase (t : Table α) (key k : String) :
    (t.erase key).get? k = if k = key then none else t.get? k := by
  show find k (t.entries.filter _) = _
  simp only [get?]
  generalize t.entries = entries
  induction entries with
  | nil => simp [find]
  | cons e rest ih =>
    by_cases he : e.1 = key
    · simp only [List.filter_cons, he, bne_self_eq_false, Bool.false_eq_true, if_false, ih]
      by_cases hk : k = key
      · simp [hk]
      · simp [hk, find_cons, he, eq_comm (a := key)]
    · simp only [List.filter_cons, show (e.1 != key) = true by simpa using he, if_true, find_cons, ih]
      by_cases hk : k = key
      · simp [hk, he]
      · simp [hk]

@[simp] theorem get?_modify (t : Table α) (key k : String) (f : α → α) :
    (t.modify key f).get? k = if k = key then (t.get? k).map f else t.get? k := by
  show find k (t.entries.map _) = _
  simp only [get?]
  generalize t.entries = entries
  induction entries with
  | nil => simp [find]
  | cons e rest ih =>
    simp only [List.map_cons, find_cons, ih, change_fst]
    by_cases hk : k = key
    · subst hk
      by_cases he : e.1 = k <;> simp [he, change]
    · by_cases he : e.1 = k
      · simp [hk, he, change]
      · simp [hk, he]

@[simp] theorem get?_mapValues (t : Table α) (f : String → α → α) (k : String) :
    (t.mapValues f).get? k = (t.get? k).map (f k) := by
  show find k (t.entries.map _) = _
  simp only [get?]
  generalize t.entries = entries
  induction entries with
  | nil => simp [find]
  | cons e rest ih =>
    simp only [List.map_cons, find_cons, ih]
    by_cases hk : e.1 = k
    · simp [hk]
    · simp [hk]

@[simp] theorem contains_insert (t : Table α) (key k : String) (value : α) :
    (t.insert key value).contains k = (k == key || t.contains k) := by
  by_cases h : k = key <;> simp [contains, h]

@[simp] theorem contains_erase (t : Table α) (key k : String) :
    (t.erase key).contains k = (k != key && t.contains k) := by
  by_cases h : k = key <;> simp [contains, h]

@[simp] theorem contains_modify (t : Table α) (key k : String) (f : α → α) :
    (t.modify key f).contains k = t.contains k := by
  by_cases h : k = key <;> simp [contains, h]

@[simp] theorem contains_mapValues (t : Table α) (f : String → α → α) (k : String) :
    (t.mapValues f).contains k = t.contains k := by
  simp [contains]

theorem mem_of_find {k : String} {v : α} {entries : List (String × α)}
    (h : find k entries = some v) : (k, v) ∈ entries := by
  induction entries with
  | nil => simp [find] at h
  | cons e rest ih =>
    rw [find_cons] at h
    split at h
    · rename_i he
      cases h
      rw [← he]
      exact List.mem_cons_self ..
    · exact List.mem_cons_of_mem _ (ih h)

theorem find_eq_of_mem {k : String} {v : α} {entries : List (String × α)}
    (hp : entries.Pairwise fun a b => a.1 < b.1) (h : (k, v) ∈ entries) :
    find k entries = some v := by
  induction entries with
  | nil => simp at h
  | cons e rest ih =>
    obtain ⟨he, hrest⟩ := List.pairwise_cons.mp hp
    rw [find_cons]
    rcases List.mem_cons.mp h with rfl | h
    · simp
    · rw [if_neg, ih hrest h]
      intro hk
      have hlt := he _ h
      rw [hk] at hlt
      exact String.lt_irrefl k hlt

theorem mem_entries {t : Table α} {k : String} {v : α} :
    (k, v) ∈ t.entries ↔ t.get? k = some v :=
  ⟨find_eq_of_mem t.increasing, mem_of_find⟩

theorem mem_keys {t : Table α} {k : String} : k ∈ t.keys ↔ (t.get? k).isSome := by
  simp only [keys, List.mem_map, Option.isSome_iff_exists]
  constructor
  · rintro ⟨⟨k', v⟩, h, rfl⟩
    exact ⟨v, mem_entries.mp h⟩
  · rintro ⟨v, h⟩
    exact ⟨(k, v), mem_entries.mpr h, rfl⟩

theorem ext_find {s t : List (String × α)} (hs : s.Pairwise fun a b => a.1 < b.1)
    (ht : t.Pairwise fun a b => a.1 < b.1) (h : ∀ k, find k s = find k t) : s = t := by
  induction s generalizing t with
  | nil =>
    cases t with
    | nil => rfl
    | cons e rest => have := h e.1; simp [find_cons] at this; simp [find] at this
  | cons d s ih =>
    obtain ⟨hd, hs⟩ := List.pairwise_cons.mp hs
    cases t with
    | nil => have := h d.1; simp [find_cons] at this; simp [find] at this
    | cons e t =>
      obtain ⟨he, ht⟩ := List.pairwise_cons.mp ht
      have hfst : d.1 = e.1 := by
        have h₁ := h d.1
        have h₂ := h e.1
        simp only [find_cons, if_true] at h₁ h₂
        by_cases hde : d.1 = e.1
        · exact hde
        · rw [if_neg (fun g => hde g.symm)] at h₁
          rw [if_neg hde] at h₂
          have l₁ := he _ (mem_of_find h₁.symm)
          have l₂ := hd _ (mem_of_find h₂)
          exact absurd (String.lt_trans l₁ l₂) (String.lt_irrefl _)
      have hsnd : d.2 = e.2 := by
        have h₁ := h d.1
        simpa [find_cons, hfst] using h₁
      have hrest : s = t := by
        refine ih hs ht fun k => ?_
        have hk := h k
        simp only [find_cons, hfst] at hk
        split at hk
        · rename_i hek
          cases hfs : find k s with
          | some v => exact absurd (hd _ (mem_of_find hfs)) (by
              rw [hfst, hek]; exact String.lt_irrefl k)
          | none =>
            cases hft : find k t with
            | some v => exact absurd (he _ (mem_of_find hft)) (by
                rw [hek]; exact String.lt_irrefl k)
            | none => rfl
        · exact hk
      rw [hrest, Prod.ext hfst hsnd]

theorem ext_get? {s t : Table α} (h : ∀ k, s.get? k = t.get? k) : s = t :=
  eq_of_entries (ext_find s.increasing t.increasing h)

end Table
end CargoEvents
