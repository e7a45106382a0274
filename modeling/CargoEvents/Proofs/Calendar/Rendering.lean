import CargoEvents.Proofs.Calendar.Dates
import CargoEvents.Proofs.Calendar.Timestamps
import CargoEvents.Proofs.Text.Writing

/-! # Texts of instants

The text of an instant reads as its date and time of day in UTC, and these are those of no other
instant: `read_render`. A leap second is written as second 60, and years that have more than four
digits or are negative with a sign, so that reading them takes them as they were.
-/
namespace CargoEvents.Calendar
open Text

theorem Instant.eq_of_parts {i j : Instant} (hseconds : i.seconds = j.seconds)
    (hnanos : i.nanos = j.nanos) : i = j :=
  Option.some.inj ((of?_eq_some.mpr ⟨hseconds, hnanos⟩).symm.trans (of?_eq_some.mpr ⟨rfl, rfl⟩))

namespace Rfc3339

/-! ## Instants as local times -/

def utc (i : Instant) : Local := ⟨i.date, i.hour, i.minute, i.second, i.fraction, 0⟩

variable (i : Instant)

theorem second_utc : (utc i).second < 60 ∧ (utc i).second = i.seconds % 60 ∧
      (utc i).nanos = i.nanos ∨
    (utc i).second = 60 ∧ i.seconds % 60 = 59 ∧ (utc i).nanos + nanosPerSecond = i.nanos := by
  have hfit := i.nanos_fit
  simp only [utc, NanosFit, Instant.second, Instant.fraction, nanosPerSecond] at hfit ⊢
  omega

theorem nanos_utc : (utc i).nanos < nanosPerSecond := Nat.mod_lt _ (by decide)

theorem hour_utc : ((utc i).hour : Int) = i.seconds % 86400 / 3600 := by
  simp only [utc, Instant.hour]
  omega

theorem minute_utc : ((utc i).minute : Int) = i.seconds % 3600 / 60 := by
  simp only [utc, Instant.minute]
  omega

theorem utc_valid : (utc i).Valid := by
  have hhour := hour_utc i
  have hminute := minute_utc i
  have hoffset : (utc i).offset = 0 := rfl
  refine ⟨Civil.ofDays_valid _, ?_, ?_, ?_, ?_, ?_⟩
  · omega
  · omega
  · rcases second_utc i with h | h <;> omega
  · omega
  · omega

theorem seconds_utc : (utc i).seconds = i.seconds := by
  have hdate : (utc i).date.toDays = i.seconds / 86400 := Civil.toDays_ofDays _
  have hsecond : ((if (utc i).second = 60 then 59 else (utc i).second : Nat) : Int) =
      i.seconds % 60 := by
    rcases second_utc i with ⟨hlt, h, -⟩ | ⟨h, h', -⟩
    · rw [if_neg hlt.ne, h]
    · rw [if_pos h, h']
      rfl
  rw [Local.seconds, hdate, hour_utc, minute_utc, hsecond]
  omega

theorem subseconds_utc : (utc i).subseconds = i.nanos := by
  rw [Local.subseconds]
  rcases second_utc i with ⟨hlt, -, h⟩ | ⟨hsecond, -, h⟩
  · rw [if_neg hlt.ne, h, Nat.add_zero]
  · rw [if_pos hsecond, h]

theorem toInstant?_utc : (utc i).toInstant? = some i := by
  have hseconds := seconds_utc i
  rw [Local.toInstant?, hseconds, if_pos ⟨utc_valid i, i.first_le, i.le_last⟩]
  exact Instant.of?_eq_some.mpr ⟨(Int.sub_zero _).symm, (subseconds_utc i).symm⟩

/-! ## Parts of a text -/

variable {rest : List Char} {n width : Nat}

theorem readYear_digits {digits : List Char} (hall : ∀ c ∈ digits, isDigit c)
    (hne : digits ≠ []) : readYear (digits ++ rest) =
      (readDigits 4 (digits ++ rest)).map fun (n, rest) => ((n : Int), rest) := by
  have hsign {c : Char} {cs : List Char} (hc : isDigit c = false) : digits ++ rest ≠ c :: cs := by
    intro heq
    have hhead : c ∈ (digits ++ rest).head? := by
      rw [heq]
      rfl
    cases (isDigit_head hall hne c hhead).symm.trans hc
  rw [readYear, trimStart_digits hall hne]
  split
  · rename_i heq
    exact (hsign rfl heq).elim
  · rename_i heq
    exact (hsign rfl heq).elim
  · rfl

theorem readYear_minus (cs : List Char) : readYear ('-' :: cs) =
    (readDigits cs.length cs).map fun (n, rest) => (-(n : Int), rest) := rfl

theorem readYear_plus (cs : List Char) : readYear ('+' :: cs) =
    (readDigits cs.length cs).map fun (n, rest) => ((n : Int), rest) := rfl

theorem readYear_yearText (year : Int) (hrest : Stops rest) :
    readYear (yearText year ++ rest) = some (year, rest) := by
  unfold yearText
  split
  · rename_i h
    rw [readYear_digits (all_padded 4 _) (padded_ne_nil (by decide) _),
      readDigits_padded (by decide) (by omega) (le_refl 4) hrest, Option.map_some]
    simp only [Int.toNat_of_nonneg h.1]
  · have hread : readDigits (atLeast 4 year.natAbs ++ rest).length
        (atLeast 4 year.natAbs ++ rest) = some (year.natAbs, rest) := by
      rw [readDigits_append (all_atLeast 4 _) (atLeast_ne_nil 4 _) (by simp) hrest, value_atLeast]
    by_cases hneg : year < 0
    · rw [if_pos hneg, List.cons_append, readYear_minus, hread, Option.map_some]
      simp only [Int.ofNat_natAbs_of_nonpos hneg.le, Int.neg_neg]
    · rw [if_neg hneg, List.cons_append, readYear_plus, hread, Option.map_some]
      simp only [Int.natAbs_of_nonneg (Int.not_lt.mp hneg)]

theorem readPart_padded (hn : n < 100) (hrest : Stops rest) :
    readPart (padded 2 n ++ rest) = some (n, rest) := by
  rw [readPart, trimStart_digits (all_padded 2 n) (padded_ne_nil (by decide) n)]
  exact readDigits_padded (by decide) hn (le_refl 2) hrest

theorem readMark_cons {c : Char} (hc : isBlank c = false) (rest : List Char) :
    readMark c (c :: rest) = some rest := by
  rw [readMark, trimStart_eq_self (by simpa using hc), readChar, if_pos rfl]

theorem readFraction_padded (hwidth : 0 < width) (hnine : width ≤ 9) (hn : n < 10 ^ width)
    (hrest : Stops rest) :
    readFraction ('.' :: padded width n ++ rest) = some (n * 10 ^ (9 - width), rest) := by
  have hdrop : rest.dropWhile isDigit = rest := by
    cases rest with
    | nil => rfl
    | cons c rest => simp [hrest c rfl]
  rw [List.cons_append, readFraction, readDigits_padded hwidth hn hnine hrest]
  simp [hdrop]

theorem readFraction_fractionText (hn : n < nanosPerSecond) :
    readFraction (fractionText n ++ ['Z']) = some (n, ['Z']) := by
  have hstop : Stops ['Z'] := stops_cons rfl []
  have hread {width m : Nat} (hwidth : 0 < width) (hnine : width ≤ 9) (hm : m < 10 ^ width)
      (heq : m * 10 ^ (9 - width) = n) :
      readFraction ('.' :: padded width m ++ ['Z']) = some (n, ['Z']) := by
    rw [readFraction_padded hwidth hnine hm hstop, heq]
  simp only [nanosPerSecond] at hn
  unfold fractionText
  split
  · rename_i hzero
    rw [hzero]
    rfl
  · split
    · exact hread (by decide) (by decide) (by omega) (by omega)
    · split
      · exact hread (by decide) (by decide) (by omega) (by omega)
      · exact hread (by decide) (by decide) (by omega) (by omega)

theorem stops_fractionText (n : Nat) (hrest : Stops rest) : Stops (fractionText n ++ rest) := by
  unfold fractionText
  split
  · exact hrest
  · split
    · exact stops_cons rfl _
    · split <;> exact stops_cons rfl _

theorem readZone_z : Reader.lenient.zone ['Z'] = some (0, []) := by decide

/-! ## The whole text -/

theorem Reader.readLocal_eq {r : Reader} {text : String} {l : Local}
    {y m₁ m m₂ d t h m₃ n m₄ s f rest : List Char}
    (hyear : r.year text.toList = some (l.date.year, y)) (hm₁ : r.mark '-' y = some m₁)
    (hmonth : r.part m₁ = some (l.date.month, m)) (hm₂ : r.mark '-' m = some m₂)
    (hday : r.part m₂ = some (l.date.day, d)) (ht : readDateEnd d = some t)
    (hhour : r.part t = some (l.hour, h)) (hm₃ : r.mark ':' h = some m₃)
    (hminute : r.part m₃ = some (l.minute, n)) (hm₄ : r.mark ':' n = some m₄)
    (hsecond : r.part m₄ = some (l.second, s)) (hnanos : readFraction s = some (l.nanos, f))
    (hoffset : r.zone f = some (l.offset, rest)) (hend : r.leftover rest = []) :
    r.readLocal text = some l := by
  refine Option.bind_eq_some_iff.mpr ⟨_, hyear, Option.bind_eq_some_iff.mpr ⟨_, hm₁, ?_⟩⟩
  refine Option.bind_eq_some_iff.mpr ⟨_, hmonth, Option.bind_eq_some_iff.mpr ⟨_, hm₂, ?_⟩⟩
  refine Option.bind_eq_some_iff.mpr ⟨_, hday, Option.bind_eq_some_iff.mpr ⟨_, ht, ?_⟩⟩
  refine Option.bind_eq_some_iff.mpr ⟨_, hhour, Option.bind_eq_some_iff.mpr ⟨_, hm₃, ?_⟩⟩
  refine Option.bind_eq_some_iff.mpr ⟨_, hminute, Option.bind_eq_some_iff.mpr ⟨_, hm₄, ?_⟩⟩
  refine Option.bind_eq_some_iff.mpr ⟨_, hsecond, Option.bind_eq_some_iff.mpr ⟨_, hnanos, ?_⟩⟩
  refine Option.bind_eq_some_iff.mpr ⟨_, hoffset, ?_⟩
  exact if_neg (not_not.mpr hend)

theorem daysInMonth_le (year : Int) (month : Nat) : daysInMonth year month ≤ 31 := by
  unfold daysInMonth
  split
  · split <;> decide
  · split <;> decide

theorem readLocal_render : Reader.lenient.readLocal (render i) = some (utc i) := by
  obtain ⟨⟨-, hmonth, -, hday⟩, hhour, hminute, hsecond, -⟩ := utc_valid i
  have hdays := daysInMonth_le (utc i).date.year (utc i).date.month
  have hnanos := nanos_utc i
  have hzone : Reader.lenient.zone ['Z'] = some ((utc i).offset, []) := readZone_z
  have htext : (render i).toList = yearText (utc i).date.year ++ '-' ::
      (padded 2 (utc i).date.month ++ '-' :: (padded 2 (utc i).date.day ++ 'T' ::
      (padded 2 (utc i).hour ++ ':' :: (padded 2 (utc i).minute ++ ':' ::
      (padded 2 (utc i).second ++ (fractionText (utc i).nanos ++ ['Z'])))))) := by
    simp [render, chars, utc]
  generalize utc i = l at *
  exact Reader.readLocal_eq (r := .lenient)
    (by rw [htext]; exact readYear_yearText _ (stops_cons rfl _))
    (readMark_cons rfl _) (readPart_padded (by omega) (stops_cons rfl _))
    (readMark_cons rfl _) (readPart_padded (by omega) (stops_cons rfl _)) rfl
    (readPart_padded (by omega) (stops_cons rfl _)) (readMark_cons rfl _)
    (readPart_padded (by omega) (stops_cons rfl _)) (readMark_cons rfl _)
    (readPart_padded (by omega) (stops_fractionText _ (stops_cons rfl _)))
    (readFraction_fractionText hnanos) hzone rfl

/-- What is read as an instant: a text that gives a local time in range. -/
theorem read_eq_some {text : String} {i : Instant} : read text = some i ↔
    ∃ l, Reader.lenient.readLocal text = some l ∧ l.InRange ∧
      i.seconds = l.seconds - l.offset ∧ i.nanos = l.subseconds := by
  rw [read, Option.bind_eq_some_iff]
  refine exists_congr fun l => and_congr_right fun hl => ?_
  obtain ⟨hnanos, hoffset⟩ := Reads.bounds (.inr hl)
  rw [← Local.exists_toInstant? hnanos hoffset]
  constructor
  · exact fun hi => ⟨⟨i, hi⟩, Local.toInstant?_eq_some hi⟩
  · rintro ⟨⟨j, hj⟩, hseconds, hsub⟩
    obtain ⟨hseconds', hsub'⟩ := Local.toInstant?_eq_some hj
    rw [hj, Instant.eq_of_parts (hseconds'.trans hseconds.symm) (hsub'.trans hsub.symm)]

theorem read_render : read (render i) = some i := by
  rw [read, readLocal_render, Option.bind_some, toInstant?_utc]

end Rfc3339
end CargoEvents.Calendar
