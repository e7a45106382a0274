import CargoEvents.Proofs.Text.Reading

/-! # Numbers that are written

A number of a fixed width, or of at least a width, is all digits and has its own value; what stops
a run of digits leaves it to be read back as it is.
-/
namespace CargoEvents.Text

variable {digits rest : List Char} {most width n : Nat}

/-! ## Digits -/

theorem digitChar_eq (n : Nat) : digitChar n = (n % 10).digitChar := by
  have h : ∀ d : Fin 10, Char.ofNat ('0'.toNat + d) = Nat.digitChar d := by decide
  exact h ⟨n % 10, Nat.mod_lt n (by decide)⟩

theorem isDigit_digitChar (n : Nat) : isDigit (digitChar n) := by
  rw [digitChar_eq]
  exact Nat.isDigit_digitChar.trans (decide_eq_true (Nat.mod_lt n (by decide)))

theorem digitValue_digitChar (n : Nat) : digitValue (digitChar n) = n % 10 := by
  rw [digitChar_eq, digitValue, Nat.toNat_digitChar_of_lt_ten (Nat.mod_lt n (by decide))]
  exact Nat.add_sub_cancel_left ..

@[simp] theorem length_padded (width n : Nat) : (padded width n).length = width := by
  induction width generalizing n with
  | zero => rfl
  | succ width ih => rw [padded, List.length_append, ih, List.length_singleton]

theorem padded_ne_nil (h : 0 < width) (n : Nat) : padded width n ≠ [] := by
  rw [← List.length_pos_iff, length_padded]
  exact h

theorem all_padded (width n : Nat) : ∀ c ∈ padded width n, isDigit c := by
  induction width generalizing n with
  | zero => simp [padded]
  | succ width ih =>
    intro c h
    rcases List.mem_append.mp h with h | h
    · exact ih _ c h
    · rw [List.mem_singleton.mp h]
      exact isDigit_digitChar n

theorem value_padded (h : n < 10 ^ width) : value (padded width n) = n := by
  induction width generalizing n with
  | zero =>
    obtain rfl : n = 0 := Nat.lt_one_iff.mp h
    rfl
  | succ width ih =>
    have hlt : n / 10 < 10 ^ width := Nat.div_lt_of_lt_mul (by rwa [← Nat.pow_succ'])
    rw [padded, value_append_singleton, ih hlt, digitValue_digitChar, Nat.div_add_mod]

theorem atLeast_ne_nil (width n : Nat) : atLeast width n ≠ [] :=
  List.append_ne_nil_of_right_ne_nil _ Nat.toDigits_ne_nil

theorem all_atLeast (width n : Nat) : ∀ c ∈ atLeast width n, isDigit c := by
  intro c h
  rcases List.mem_append.mp h with h | h
  · rw [List.eq_of_mem_replicate h]
    rfl
  · exact Nat.isDigit_of_mem_toDigits (by decide) (by decide) h

theorem value_atLeast (width n : Nat) : value (atLeast width n) = n := by
  change Nat.ofDigitChars 10 (List.replicate _ '0' ++ Nat.toDigits 10 n) 0 = n
  rw [Nat.ofDigitChars_append, Nat.ofDigitChars_replicate_zero, Nat.mul_zero,
    Nat.ofDigitChars_toDigits (by decide) (by decide)]

/-! ## Reading them back -/

/-- Nothing that a number would go on with. -/
def Stops (rest : List Char) : Prop := ∀ c ∈ rest.head?, isDigit c = false

theorem stops_cons {c : Char} (h : isDigit c = false) (rest : List Char) : Stops (c :: rest) := by
  rintro d hd
  rwa [← Option.some.inj hd]

theorem readDigits_append (hall : ∀ c ∈ digits, isDigit c) (hne : digits ≠ [])
    (hmost : digits.length ≤ most) (hrest : Stops rest) :
    readDigits most (digits ++ rest) = some (value digits, rest) := by
  have hstop : (rest.take (most - digits.length)).takeWhile isDigit = [] := by
    cases rest with
    | nil => simp
    | cons c rest =>
      cases most - digits.length with
      | zero => rfl
      | succ k => simp [hrest c rfl]
  have hrun : ((digits ++ rest).take most).takeWhile isDigit = digits := by
    rw [List.take_append, List.take_of_length_le hmost, List.takeWhile_append_of_pos hall, hstop,
      List.append_nil]
  simp only [readDigits, hrun, if_neg hne, List.drop_left]

theorem readDigits_padded (hwidth : 0 < width) (hn : n < 10 ^ width) (hmost : width ≤ most)
    (hrest : Stops rest) : readDigits most (padded width n ++ rest) = some (n, rest) := by
  rw [readDigits_append (all_padded width n) (padded_ne_nil hwidth n) (by rwa [length_padded])
    hrest, value_padded hn]

theorem isDigit_head (hall : ∀ c ∈ digits, isDigit c) (hne : digits ≠ []) :
    ∀ c ∈ (digits ++ rest).head?, isDigit c := by
  rw [List.head?_append_of_ne_nil digits hne]
  exact fun c hc => hall c (List.mem_of_mem_head? hc)

theorem trimStart_digits (hall : ∀ c ∈ digits, isDigit c) (hne : digits ≠ []) :
    trimStart (digits ++ rest) = digits ++ rest :=
  trimStart_eq_self fun c hc => isBlank_eq_false_of_isDigit (isDigit_head hall hne c hc)

end CargoEvents.Text
