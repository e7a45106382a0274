import CargoEvents.Text.Digits
import Mathlib.Data.List.DropRight
import Mathlib.Data.Nat.Digits.Defs

/-! # Numbers in texts

What a text is that a number can be read from: blanks around an optional plus sign and
decimal digits. Trimming a text and reading it does the same.
-/
namespace CargoEvents.Text

def IsNumber (text : String) (n : Nat) : Prop :=
  ∃ before sign digits after : List Char,
    text.toList = before ++ sign ++ digits ++ after ∧
    (∀ c ∈ before ++ after, isBlank c) ∧ (sign = [] ∨ sign = ['+']) ∧
    digits ≠ [] ∧ (∀ c ∈ digits, isDigit c) ∧
    n = Nat.ofDigits 10 (digits.reverse.map digitValue)

/-! ## Values of digits -/

theorem value_append_singleton (digits : List Char) (c : Char) :
    value (digits ++ [c]) = 10 * value digits + digitValue c := by
  simp [value]

theorem isDigit_iff {c : Char} : isDigit c ↔ 48 ≤ c.toNat ∧ c.toNat ≤ 57 := by
  simp only [isDigit, Bool.and_eq_true, decide_eq_true_eq, Char.le_def, UInt32.le_iff_toNat_le]
  rfl

theorem digitValue_lt {c : Char} (h : isDigit c) : digitValue c < 10 := by
  have hnine : c.toNat ≤ 57 := (isDigit_iff.mp h).2
  have hzero : '0'.toNat = 48 := rfl
  rw [digitValue]
  omega

theorem value_lt {digits : List Char} (h : digits.all isDigit) :
    value digits < Nat.pow 10 digits.length := by
  induction digits using List.reverseRecOn with
  | nil => exact Nat.one_pos
  | append_singleton digits c ih =>
    obtain ⟨hall, hc⟩ : digits.all isDigit ∧ isDigit c := by simpa using h
    have hlt := ih hall
    have hdigit := digitValue_lt hc
    have hpow : Nat.pow 10 (digits.length + 1) = Nat.pow 10 digits.length * 10 := rfl
    rw [value_append_singleton, List.length_append, List.length_singleton, hpow]
    omega

theorem value_eq_ofDigits (digits : List Char) :
    value digits = Nat.ofDigits 10 (digits.reverse.map digitValue) := by
  induction digits using List.reverseRecOn with
  | nil => rfl
  | append_singleton digits c ih =>
    rw [value_append_singleton, ih, List.reverse_append, List.reverse_singleton,
      List.singleton_append, List.map_cons, Nat.ofDigits_cons, add_comm]

theorem isBlank_eq_false_of_isDigit {c : Char} (h : isDigit c) : isBlank c = false := by
  obtain ⟨hlow, hhigh⟩ := isDigit_iff.mp h
  simp only [isBlank, blankRanges, List.any_cons, List.any_nil, Bool.or_false, Bool.or_eq_false_iff,
    Bool.and_eq_false_iff, decide_eq_false_iff_not]
  omega

/-- What `readNat` takes: an optional plus sign and digits. -/
theorem readNat_eq_some {bound n : Nat} {s : String} :
    readNat bound s = some n ↔ ∃ sign digits : List Char, s.toList = sign ++ digits ∧
      (sign = [] ∨ sign = ['+']) ∧ digits ≠ [] ∧ (∀ c ∈ digits, isDigit c) ∧
      value digits = n ∧ n < bound := by
  have hcore (digits : List Char) :
      (if digits = [] ∨ !digits.all isDigit then none
        else if value digits < bound then some (value digits) else none) = some n ↔
      digits ≠ [] ∧ (∀ c ∈ digits, isDigit c) ∧ value digits = n ∧ n < bound := by
    simp only [Option.ite_none_left_eq_some, Option.ite_none_right_eq_some, not_or,
      Bool.not_eq_true', Bool.not_eq_false, List.all_eq_true, Option.some.injEq]
    grind
  unfold readNat
  extract_lets digits
  obtain ⟨sign, hsplit, hsign⟩ : ∃ sign, s.toList = sign ++ digits ∧
      (sign = [] ∧ (∀ rest, digits ≠ '+' :: rest) ∨ sign = ['+']) := by
    simp only [digits]
    split
    · rename_i rest hrest
      exact ⟨['+'], hrest, .inr rfl⟩
    · rename_i hplain
      exact ⟨[], rfl, .inl ⟨rfl, hplain⟩⟩
  rw [hcore]
  constructor
  · exact fun h => ⟨sign, digits, hsplit, hsign.imp_left And.left, h⟩
  · rintro ⟨sign', digits', heq, hsign', h⟩
    -- A plus sign is no digit, so there is one way to split.
    have hplus (rest : List Char) : digits' ≠ '+' :: rest := by
      rintro rfl
      exact absurd (h.2.1 '+' List.mem_cons_self) (by decide)
    have hsame : sign ++ digits = sign' ++ digits' := hsplit.symm.trans heq
    rcases hsign with ⟨rfl, hplain⟩ | rfl <;> rcases hsign' with rfl | rfl
    · rwa [show digits = digits' from hsame]
    · exact absurd hsame (hplain digits')
    · exact absurd hsame.symm (hplus digits)
    · rwa [List.append_cancel_left hsame]

/-! ## Trimming -/

theorem trimStart_append {before : List Char} (h : ∀ c ∈ before, isBlank c) (cs : List Char) :
    trimStart (before ++ cs) = trimStart cs := List.dropWhile_append_of_pos h

theorem trimStart_eq_self {cs : List Char} (h : ∀ c ∈ cs.head?, isBlank c = false) :
    trimStart cs = cs := by
  cases cs with
  | nil => rfl
  | cons c cs => exact List.dropWhile_cons_of_neg (by simp [h c rfl])

theorem trim_split (text : String) : ∃ before after : List Char,
    text.toList = before ++ (trim text).toList ++ after ∧ ∀ c ∈ before ++ after, isBlank c := by
  have hsplit (cs : List Char) : cs = cs.takeWhile isBlank ++ trimStart cs :=
    List.takeWhile_append_dropWhile.symm
  let behind := ((trimStart text.toList).reverse.takeWhile isBlank).reverse
  have hbehind : trimStart text.toList = (trim text).toList ++ behind := by
    rw [trim, String.toList_ofList, ← List.reverse_append, ← hsplit, List.reverse_reverse]
  refine ⟨text.toList.takeWhile isBlank, behind, ?_, fun c hc => ?_⟩
  · rw [List.append_assoc, ← hbehind, ← hsplit]
  · rcases List.mem_append.mp hc with hc | hc
    · exact List.mem_takeWhile_imp hc
    · exact List.mem_takeWhile_imp (List.mem_reverse.mp hc)

theorem trim_eq {text : String} {before word after : List Char}
    (htext : text.toList = before ++ word ++ after) (hblank : ∀ c ∈ before ++ after, isBlank c)
    (hne : word ≠ []) (hword : ∀ c ∈ word, isBlank c = false) : (trim text).toList = word := by
  have hbefore : ∀ c ∈ before, isBlank c := fun c hc => hblank c (List.mem_append_left _ hc)
  have hafter : ∀ c ∈ after.reverse, isBlank c := fun c hc =>
    hblank c (List.mem_append_right _ (List.mem_reverse.mp hc))
  have hhead : ∀ c ∈ (word ++ after).head?, isBlank c = false := by
    rw [List.head?_append_of_ne_nil word hne]
    exact fun c hc => hword c (List.mem_of_mem_head? hc)
  have hlast : ∀ c ∈ word.reverse.head?, isBlank c = false := fun c hc =>
    hword c (List.mem_reverse.mp (List.mem_of_mem_head? hc))
  rw [trim, String.toList_ofList, htext, List.append_assoc, trimStart_append hbefore,
    trimStart_eq_self hhead, List.reverse_append, trimStart_append hafter, trimStart_eq_self hlast,
    List.reverse_reverse]

/-- A trimmed text reads as the number it is, if that is below the bound. -/
theorem readNat_trim_eq_some {bound n : Nat} {text : String} :
    readNat bound (trim text) = some n ↔ IsNumber text n ∧ n < bound := by
  rw [readNat_eq_some]
  constructor
  · rintro ⟨sign, digits, heq, hsign, hne, hall, rfl, hbound⟩
    obtain ⟨before, after, htext, hblank⟩ := trim_split text
    rw [heq, ← List.append_assoc] at htext
    exact ⟨⟨before, sign, digits, after, htext, hblank, hsign, hne, hall, value_eq_ofDigits _⟩,
      hbound⟩
  · rintro ⟨⟨before, sign, digits, after, htext, hblank, hsign, hne, hall, hvalue⟩, hbound⟩
    have hword : ∀ c ∈ sign ++ digits, isBlank c = false := by
      intro c hc
      rcases List.mem_append.mp hc with hc | hc
      · rcases hsign with rfl | rfl
        · cases hc
        · rw [List.mem_singleton.mp hc]
          decide
      · exact isBlank_eq_false_of_isDigit (hall c hc)
    rw [List.append_assoc before] at htext
    exact ⟨sign, digits, trim_eq htext hblank (by simp [hne]) hword, hsign, hne, hall,
      (value_eq_ofDigits digits).trans hvalue.symm, hbound⟩

end CargoEvents.Text
