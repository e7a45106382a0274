import CargoEvents.Wire.Record
import Mathlib.Data.Nat.Bitwise

/-! # Numbers, keys and lengths read back

Every reader stops where its writer did, whatever bytes follow. Nine groups of seven bits
and the last bit make 64 bits, so a number below 2⁶⁴ never needs an eleventh byte; the size
computed from its highest bit is the number of groups it was written in.
-/
namespace CargoEvents.Wire

theorem toNat_byte {n : Nat} (h : n < 256) : (UInt8.ofNat n).toNat = n :=
  UInt8.toNat_ofNat_of_lt' h

theorem readGroups_writeGroups (more : Nat) {n : Nat} (h : n < 2 * 128 ^ more) (rest : Bytes) :
    readGroups (more + 1) (writeGroups more n ++ rest) = some (n, rest) := by
  induction more generalizing n with
  | zero =>
    have hn : n < 2 := by simpa using h
    have hbyte := toNat_byte (n := n) (by omega)
    have hlast : ¬((0 : Nat) = 0 ∧ 1 < n) := by omega
    simp only [writeGroups, List.singleton_append, readGroups, UInt8.lt_iff_toNat_lt, hbyte]
    rw [if_pos (by simp; omega), if_neg (by simpa using hlast)]
  | succ more ih =>
    rw [writeGroups]
    split
    · rename_i hn
      have hbyte := toNat_byte (n := n) (by omega)
      simp only [List.singleton_append, readGroups, UInt8.lt_iff_toNat_lt, hbyte]
      rw [if_pos (by simpa using hn), if_neg (by simp)]
    · have hbyte := toNat_byte (n := n % 128 + 128) (by omega)
      have hrest : n / 128 < 2 * 128 ^ more := by
        rw [Nat.pow_succ] at h
        omega
      have hsum : n % 128 + 128 - 128 + 128 * (n / 128) = n := by omega
      rw [List.cons_append, readGroups]
      simp only [UInt8.lt_iff_toNat_lt, hbyte, ih hrest, Option.map_some, hsum]
      rw [if_neg (by simp)]

theorem log2_or_one (n : Nat) : (n ||| 1).log2 = n.log2 := by
  cases n with
  | zero => decide
  | succ n =>
    have hne : n + 1 ||| 1 ≠ 0 := by simp
    obtain ⟨hlow, hhigh⟩ := (Nat.log2_eq_iff (Nat.succ_ne_zero n)).mp rfl
    exact (Nat.log2_eq_iff hne).mpr ⟨hlow.trans Nat.left_le_or, Nat.or_lt_two_pow hhigh (by simp)⟩

theorem log2_group {n : Nat} (h : 128 ≤ n) : n.log2 = (n / 128).log2 + 7 := by
  have hne : n / 128 ≠ 0 := by omega
  obtain ⟨hlow, hhigh⟩ := (Nat.log2_eq_iff hne).mp rfl
  apply (Nat.log2_eq_iff (by omega)).mpr
  constructor
  · rw [Nat.pow_add]
    omega
  · rw [Nat.add_right_comm, Nat.pow_add]
    omega

theorem varintSize_eq (n : Nat) : varintSize n = (n.log2 * 9 + 73) / 64 := by
  rw [varintSize, log2_or_one]

theorem varintSize_of_lt {n : Nat} (h : n < 128) : varintSize n = 1 := by
  rw [varintSize_eq]
  by_cases h0 : n = 0
  · subst h0
    decide
  · have hlog : n.log2 < 7 := (Nat.log2_lt h0).mpr h
    omega

theorem varintSize_pos (n : Nat) : 0 < varintSize n := by
  rw [varintSize]
  omega

theorem writeGroups_length (more : Nat) {n : Nat} (h : n < 2 * 128 ^ more) (hm : more ≤ 9) :
    (writeGroups more n).length = varintSize n := by
  induction more generalizing n with
  | zero =>
    have hn : n < 2 := by simpa using h
    rw [varintSize_of_lt (by omega), writeGroups, List.length_singleton]
  | succ more ih =>
    rw [writeGroups]
    split
    · rename_i hn
      rw [varintSize_of_lt hn, List.length_singleton]
    · have hrest : n / 128 < 2 * 128 ^ more := by
        rw [Nat.pow_succ] at h
        omega
      have hlog := log2_group (n := n) (by omega)
      -- The rounding in the size is exact as long as no more than 64 bits are meant.
      have hbits : (n / 128).log2 < 57 := by
        apply (Nat.log2_lt (by omega)).mpr
        calc n / 128 < 2 * 128 ^ more := hrest
          _ ≤ 2 * 128 ^ 8 := Nat.mul_le_mul_left 2 (Nat.pow_le_pow_right (by decide) (by omega))
          _ = 2 ^ 57 := by decide
      rw [List.length_cons, ih hrest (by omega), varintSize_eq, varintSize_eq, hlog]
      omega

theorem lt_groups {n : Nat} (h : n < 2 ^ 64) : n < 2 * 128 ^ 9 := by
  have hpow : 2 * 128 ^ 9 = 2 ^ 64 := by decide
  omega

theorem readNumber_writeVarint {n : Nat} (h : n < 2 ^ 64) (rest : Bytes) :
    readNumber (writeVarint n ++ rest) = .ok (n, rest) := by
  have hread : readVarint (writeVarint n ++ rest) = some (n, rest) :=
    readGroups_writeGroups 9 (lt_groups h) rest
  rw [readNumber, hread]

theorem writeVarint_length {n : Nat} (h : n < 2 ^ 64) : (writeVarint n).length = varintSize n :=
  writeGroups_length 9 (lt_groups h) (Nat.le_refl 9)

/-! ## Keys and lengths -/

def IsNumber (number : Nat) : Prop := 0 < number ∧ number < 2 ^ 29

instance (number : Nat) : Decidable (IsNumber number) := inferInstanceAs (Decidable (_ ∧ _))

theorem WireType.code_lt (wire : WireType) : wire.code < 8 := by
  cases wire <;> decide

theorem IsNumber.key_lt {number : Nat} (h : IsNumber number) (wire : WireType) :
    number * 8 + wire.code < UInt32.size := by
  have hcode := wire.code_lt
  have hnumber := h.2
  simp only [UInt32.size]
  omega

theorem readKey_of_readNumber {number : Nat} (h : IsNumber number) (wire : WireType)
    {bytes rest : Bytes} (hread : readNumber bytes = .ok (number * 8 + wire.code, rest)) :
    readKey bytes = .ok ((number, wire), rest) := by
  have hkey := h.key_lt wire
  have hcode := wire.code_lt
  have hpos := h.1
  have hwire : (number * 8 + wire.code) % 8 = wire.code := by omega
  have hnumber : (number * 8 + wire.code) / 8 = number := by omega
  rw [readKey, hread]
  change (if UInt32.size ≤ number * 8 + wire.code then _ else _) = _
  rw [if_neg (by omega), hwire, hnumber, WireType.ofCode?_code]
  change (if number = 0 then _ else _) = _
  rw [if_neg (by omega)]

theorem readKey_writeKey {number : Nat} (h : IsNumber number) (wire : WireType) (rest : Bytes) :
    readKey (writeKey number wire ++ rest) = .ok ((number, wire), rest) := by
  have hsmall : number * 8 + wire.code < 2 ^ 64 := (h.key_lt wire).trans (by decide)
  exact readKey_of_readNumber h wire (readNumber_writeVarint hsmall rest)

theorem writeKey_length {number : Nat} (h : IsNumber number) (wire : WireType) :
    (writeKey number wire).length = varintSize (number * 8 + wire.code) :=
  writeVarint_length ((h.key_lt wire).trans (by decide))

theorem readExact_append (content rest : Bytes) :
    readExact content.length (content ++ rest) = .ok (content, rest) := by
  have hle : content.length ≤ (content ++ rest).length := by simp
  simp only [readExact, splitExact, if_pos hle, List.splitAt_eq, List.take_left, List.drop_left]

theorem readDelimited_append {content : Bytes} (h : content.length < 2 ^ 64) (rest : Bytes) :
    readDelimited (writeVarint content.length ++ content ++ rest) = .ok (content, rest) := by
  rw [readDelimited, List.append_assoc, readNumber_writeVarint h]
  exact readExact_append content rest

end CargoEvents.Wire
