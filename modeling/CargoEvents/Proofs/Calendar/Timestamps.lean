import CargoEvents.Calendar.Rfc3339
import CargoEvents.Proofs.Text.Reading
import Mathlib.Tactic.Ring

/-! # Timestamps

An instant is what its wire timestamp names and nothing else is, so converting loses nothing either
way. Text that is read keeps leap seconds: offsets are whole minutes, so the seconds that may run on
stay the last of a minute.
-/
namespace CargoEvents.Calendar

/-! ## Instants and timestamps -/

namespace Instant
variable {i : Instant} {t : Timestamp} {s : Int} {n : Nat}

theorem of?_eq_some : of? s n = some i ↔ i.seconds = s ∧ i.nanos = n := by
  unfold of?
  constructor
  · intro h
    split at h <;> cases h
    exact ⟨rfl, rfl⟩
  · rintro ⟨rfl, rfl⟩
    rw [dif_pos ⟨i.first_le, i.le_last, i.nanos_fit⟩]

theorem exists_of? : (∃ i, of? s n = some i) ↔
    firstSecond ≤ s ∧ s ≤ lastSecond ∧ NanosFit s n := by
  unfold of?
  split
  · rename_i h
    exact iff_of_true ⟨_, rfl⟩ h
  · rename_i h
    exact iff_of_false (fun ⟨_, hi⟩ => by cases hi) h

theorem int32?_nanos (i : Instant) : int32? i.nanos = some (.ofInt i.nanos) :=
  if_pos i.toTimestamp_nanos

theorem toInt_seconds (i : Instant) : i.toTimestamp.seconds.toInt = i.seconds := by
  have hfirst := i.first_le
  have hlast := i.le_last
  simp only [firstSecond, lastSecond] at hfirst hlast
  exact Int64.toInt_ofInt_of_le (by omega) (by omega)

theorem toInt_nanos (i : Instant) : i.toTimestamp.nanos.toInt = i.nanos := by
  have hfits := i.toTimestamp_nanos
  rw [toTimestamp, int32?_nanos]
  exact Int32.toInt_ofInt_of_le (by omega) (by omega)

theorem toTimestamp_eq_iff : i.toTimestamp = t ↔
    i.seconds = t.seconds.toInt ∧ i.nanos = t.nanos.toInt := by
  rw [← toInt_seconds, ← toInt_nanos, Int64.toInt_inj, Int32.toInt_inj]
  obtain ⟨seconds, nanos⟩ := t
  rw [Timestamp.mk.injEq]

/-- The timestamp of an instant is the one that names it. -/
theorem ofTimestamp?_eq_some : ofTimestamp? t = some i ↔ i.toTimestamp = t := by
  rw [toTimestamp_eq_iff, ofTimestamp?]
  split
  · rename_i hneg
    have hlt : t.nanos.toInt < 0 := Int32.lt_iff_toInt_lt.mp hneg
    exact iff_of_false (by simp) fun h => by omega
  · rename_i hpos
    have hle : 0 ≤ t.nanos.toInt := Int.not_lt.mp fun hlt => hpos (Int32.lt_iff_toInt_lt.mpr hlt)
    rw [of?_eq_some]
    omega

theorem exists_ofTimestamp? : (∃ i, ofTimestamp? t = some i) ↔
    (firstSecond ≤ t.seconds.toInt ∧ t.seconds.toInt ≤ lastSecond) ∧
    (0 ≤ t.nanos.toInt ∧ t.nanos.toInt < nanosPerSecond ∨
      nanosPerSecond ≤ t.nanos.toInt ∧ t.nanos.toInt < 2 * nanosPerSecond ∧
        t.seconds.toInt % 60 = 59) := by
  rw [ofTimestamp?]
  split
  · rename_i hneg
    have hlt : t.nanos.toInt < 0 := Int32.lt_iff_toInt_lt.mp hneg
    refine iff_of_false (by simp) ?_
    simp only [nanosPerSecond]
    omega
  · rename_i hpos
    have hle : 0 ≤ t.nanos.toInt := Int.not_lt.mp fun hlt => hpos (Int32.lt_iff_toInt_lt.mpr hlt)
    rw [exists_of?]
    simp only [NanosFit, nanosPerSecond]
    omega

end Instant

/-! ## Instants that are read -/

open Text

theorem readDigits_bound {most n : Nat} {cs rest : List Char}
    (h : readDigits most cs = some (n, rest)) :
    ∃ k ≤ most, k ≤ cs.length ∧ n < Nat.pow 10 k ∧ rest = cs.drop k := by
  unfold readDigits at h
  simp only at h
  split at h
  · cases h
  · cases h
    have hrun : ((cs.take most).takeWhile isDigit).length ≤ (cs.take most).length :=
      (List.takeWhile_prefix _).length_le
    rw [List.length_take] at hrun
    refine ⟨_, by omega, by omega, value_lt ?_, rfl⟩
    exact List.all_takeWhile

namespace Rfc3339
variable {cs rest : List Char} {n : Nat}

theorem readFraction_lt (h : readFraction cs = some (n, rest)) : n < nanosPerSecond := by
  unfold readFraction at h
  split at h
  · rename_i digits
    obtain ⟨⟨m, after⟩, hdigits, hn⟩ := Option.bind_eq_some_iff.mp h
    obtain ⟨k, hk, hlen, hm, rfl⟩ := readDigits_bound hdigits
    cases hn
    have hcount : digits.length - (digits.drop k).length = k := by
      rw [List.length_drop]
      omega
    rw [hcount]
    calc m * Nat.pow 10 (9 - k) < Nat.pow 10 k * Nat.pow 10 (9 - k) :=
          Nat.mul_lt_mul_of_pos_right hm (Nat.pow_pos (by decide))
      _ = Nat.pow 10 (k + (9 - k)) := (Nat.pow_add ..).symm
      _ = nanosPerSecond := by rw [Nat.add_sub_cancel' hk]; rfl
  · cases h
    exact Nat.zero_lt_of_lt (by decide : 0 < nanosPerSecond)

theorem readOffset_minutes {separator : List Char → Option (List Char)} {offset : Int}
    (h : readOffset separator cs = some (offset, rest)) : offset % 60 = 0 := by
  cases cs with
  | nil => cases h
  | cons c cs =>
    rw [readOffset] at h
    by_cases hutc : c = 'Z' ∨ c = 'z'
    · rw [if_pos hutc] at h
      cases h
      rfl
    · rw [if_neg hutc] at h
      by_cases hsign : ¬(c = '-' ∨ c = '\u2212') ∧ c ≠ '+'
      · rw [if_pos hsign] at h
        cases h
      · rw [if_neg hsign] at h
        obtain ⟨hours, -, h⟩ := Option.bind_eq_some_iff.mp h
        obtain ⟨_, -, h⟩ := Option.bind_eq_some_iff.mp h
        obtain ⟨minutes, -, h⟩ := Option.bind_eq_some_iff.mp h
        simp only at h
        split at h
        · cases h
        · cases h
          split <;> omega

theorem readZone_minutes {offset : Int} (h : readZone cs = some (offset, rest)) :
    offset % 60 = 0 := by
  unfold readZone at h
  split at h
  · cases h
    rfl
  · exact readOffset_minutes h

/-- What either reader takes for a local time. -/
def Reads (text : String) (l : Local) : Prop :=
  Reader.strict.readLocal text = some l ∨ Reader.lenient.readLocal text = some l

theorem Reader.readLocal_ends {r : Reader} {text : String} {l : Local}
    (h : r.readLocal text = some l) :
    (∃ cs rest, readFraction cs = some (l.nanos, rest)) ∧
      ∃ cs rest, r.zone cs = some (l.offset, rest) := by
  -- Before the fraction come the date and the time of day, in eleven steps.
  iterate 11 obtain ⟨_, -, h⟩ := Option.bind_eq_some_iff.mp h
  obtain ⟨⟨nanos, _⟩, hnanos, h⟩ := Option.bind_eq_some_iff.mp h
  obtain ⟨⟨offset, _⟩, hoffset, h⟩ := Option.bind_eq_some_iff.mp h
  simp only at h
  split at h
  · cases h
  · cases h
    exact ⟨⟨_, _, hnanos⟩, _, _, hoffset⟩

theorem Reads.bounds {text : String} {l : Local} (h : Reads text l) :
    l.nanos < nanosPerSecond ∧ l.offset % 60 = 0 := by
  rcases h with h | h
  · obtain ⟨⟨_, _, hnanos⟩, _, _, hoffset⟩ := Reader.readLocal_ends h
    exact ⟨readFraction_lt hnanos, readOffset_minutes hoffset⟩
  · obtain ⟨⟨_, _, hnanos⟩, _, _, hoffset⟩ := Reader.readLocal_ends h
    exact ⟨readFraction_lt hnanos, readZone_minutes hoffset⟩

namespace Local
variable {l : Local} {i : Instant}

/-- Valid, and in the range of instants both as written and in UTC. -/
def InRange (l : Local) : Prop :=
  l.Valid ∧ (firstSecond ≤ l.seconds ∧ l.seconds ≤ lastSecond) ∧
    firstSecond ≤ l.seconds - l.offset ∧ l.seconds - l.offset ≤ lastSecond

theorem nanosFit (hn : l.nanos < nanosPerSecond) (ho : l.offset % 60 = 0) :
    NanosFit (l.seconds - l.offset) l.subseconds := by
  by_cases hleap : l.second = 60
  · right
    simp only [seconds, subseconds, if_pos hleap]
    constructor <;> omega
  · left
    simpa only [subseconds, if_neg hleap, Nat.add_zero] using hn

theorem exists_toInstant? (hn : l.nanos < nanosPerSecond) (ho : l.offset % 60 = 0) :
    (∃ i, l.toInstant? = some i) ↔ l.InRange := by
  have hfit := nanosFit hn ho
  unfold toInstant? InRange
  split
  · rename_i h
    rw [Instant.exists_of?]
    simp only [h, hfit, and_true, true_and]
  · rename_i h
    refine iff_of_false (by simp) fun hr => h ⟨hr.1, hr.2.1⟩

theorem toInstant?_eq_some (h : l.toInstant? = some i) :
    i.seconds = l.seconds - l.offset ∧ i.nanos = l.subseconds := by
  unfold toInstant? at h
  split at h
  · exact Instant.of?_eq_some.mp h
  · cases h

end Local
end Rfc3339

open Rfc3339 in
/-- Exactly the timestamps in range name instants, and each the one it is the timestamp of; the
nanoseconds of instants always fit. All that is read in the range of instants is one, a leap second
with the nanoseconds it runs on. -/
theorem timestamps_lossless :
    (firstSecond = Civil.toDays ⟨-262143, 1, 1⟩ * 86400 ∧
      lastSecond = Civil.toDays ⟨262142, 12, 31⟩ * 86400 + 86399) ∧
    (∀ t : Timestamp, (∃ i, Instant.ofTimestamp? t = some i) ↔
      (firstSecond ≤ t.seconds.toInt ∧ t.seconds.toInt ≤ lastSecond) ∧
      (0 ≤ t.nanos.toInt ∧ t.nanos.toInt < nanosPerSecond ∨
        nanosPerSecond ≤ t.nanos.toInt ∧ t.nanos.toInt < 2 * nanosPerSecond ∧
          t.seconds.toInt % 60 = 59)) ∧
    (∀ t i, Instant.ofTimestamp? t = some i → i.toTimestamp = t) ∧
    (∀ i : Instant, Instant.ofTimestamp? i.toTimestamp = some i ∧
      ∃ nanos, Instant.int32? i.nanos = some nanos) ∧
    ∀ text l, Reads text l → ((∃ i, l.toInstant? = some i) ↔ l.InRange) ∧
      ∀ i, l.toInstant? = some i → i.seconds = l.seconds - l.offset ∧ i.nanos = l.subseconds := by
  refine ⟨by decide +kernel, fun t => Instant.exists_ofTimestamp?,
    fun t i => Instant.ofTimestamp?_eq_some.mp, fun i => ?_, fun text l h => ?_⟩
  · exact ⟨Instant.ofTimestamp?_eq_some.mpr rfl, _, i.int32?_nanos⟩
  · obtain ⟨hnanos, hoffset⟩ := h.bounds
    exact ⟨Local.exists_toInstant? hnanos hoffset, fun i => Local.toInstant?_eq_some⟩

theorem timestamps_lossless_leap_second :
    ∃ i, Rfc3339.readStrict "2017-01-01T05:29:60.5+05:30" = some i ∧
      i.toTimestamp = ⟨1483228799, 1_500_000_000⟩ ∧
      Instant.ofTimestamp? ⟨1483228799, 1_500_000_000⟩ = some i := by
  obtain ⟨-, hnamed, hback, -, -⟩ := timestamps_lossless
  obtain ⟨i, hi⟩ := (hnamed ⟨1483228799, 1_500_000_000⟩).mpr (by decide +kernel)
  refine ⟨i, ?_, hback _ i hi, hi⟩
  rw [← hi]
  decide +kernel

end CargoEvents.Calendar
