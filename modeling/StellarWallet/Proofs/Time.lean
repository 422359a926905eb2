import Mathlib.Data.Nat.Digits.Defs
import Mathlib.Tactic.IntervalCases
import StellarWallet.Time

/-!
The text of a point in time.

A date has a number, the days before it since the start of the year one, counted by the lengths of
the months and of the years. The timestamp of a point in time names the date with the right number
and the time of day, each part in decimal digits of a fixed width.
-/

namespace StellarWallet

structure Date where
  year : Nat
  month : Nat
  day : Nat

namespace Date

/-- Every fourth year is a leap year, but for the full centuries that four hundred does not
divide. -/
def IsLeap (year : Nat) : Prop := year % 4 = 0 ∧ (year % 100 ≠ 0 ∨ year % 400 = 0)

instance (year : Nat) : Decidable (IsLeap year) := inferInstanceAs (Decidable (_ ∧ _))

def monthDays (year : Nat) : Nat → Nat
  | 2 => if IsLeap year then 29 else 28
  | 4 | 6 | 9 | 11 => 30
  | _ => 31

lemma monthDays_le (year month : Nat) : monthDays year month ≤ 31 := by
  unfold monthDays
  split
  · split <;> decide
  all_goals decide

/-- The days of the first `n` years. -/
def yearsDays : Nat → Nat
  | 0 => 0
  | n + 1 => yearsDays n + if IsLeap (n + 1) then 366 else 365

/-- The days of the first `n` months of a year. -/
def monthsDays (year : Nat) : Nat → Nat
  | 0 => 0
  | n + 1 => monthsDays year n + monthDays year (n + 1)

/-- The days before a date since the start of the year one. -/
def number (d : Date) : Nat :=
  yearsDays (d.year - 1) + monthsDays d.year (d.month - 1) + (d.day - 1)

/-- There is such a date. -/
structure IsValid (d : Date) : Prop where
  year : 1 ≤ d.year
  month : 1 ≤ d.month ∧ d.month ≤ 12
  day : 1 ≤ d.day ∧ d.day ≤ monthDays d.year d.month

lemma yearsDays_add (n : Nat) : yearsDays n + n / 100 = 365 * n + n / 4 + n / 400 := by
  induction n with
  | zero => rfl
  | succ n ih =>
    rw [yearsDays]
    split
    · next h =>
      obtain ⟨hfour, hcentury⟩ := h
      omega
    · next h =>
      have hcommon : (n + 1) % 4 = 0 → (n + 1) % 100 = 0 ∧ (n + 1) % 400 ≠ 0 := by
        intro hfour
        have := mt (And.intro hfour) h
        omega
      omega

/-- The day in an era of 400 years that begin in March: full centuries, spans of four years and
years before it, and days since the first of that March. -/
lemma exists_era {n : Nat} (h : n < 146097) :
    ∃ c q y d, n = 36524 * c + 1461 * q + 365 * y + d ∧ c ≤ 3 ∧ q ≤ 24 ∧ y ≤ 3 ∧ d ≤ 365 ∧
      (d = 365 → y = 3 ∧ (q = 24 → c = 3)) := by
  -- The last day of the era belongs to the fourth century.
  obtain ⟨c, hc, hlow, hhigh⟩ : ∃ c ≤ 3, 36524 * c ≤ n ∧
      (n < 36524 * c + 36524 ∨ c = 3 ∧ n = 36524 * c + 36524) := by
    by_cases hlast : n = 146096
    · exact ⟨3, by omega⟩
    · exact ⟨n / 36524, by omega⟩
  obtain ⟨q, r, hq, hr⟩ : ∃ q r, n - 36524 * c = 1461 * q + r ∧ r < 1461 :=
    ⟨(n - 36524 * c) / 1461, (n - 36524 * c) % 1461, by omega, by omega⟩
  obtain ⟨y, d, hy, hd, hyd⟩ : ∃ y d, r = 365 * y + d ∧ y ≤ 3 ∧ (d < 365 ∨ y = 3 ∧ d = 365) := by
    by_cases hlast : r = 1460
    · exact ⟨3, 365, by omega⟩
    · exact ⟨r / 365, r % 365, by omega⟩
  exact ⟨c, q, y, d, by omega, hc, by omega, hd, by omega, by omega⟩

/-- The date of a day of a year that begins in March. -/
def ofMarch (year d : Nat) : Date :=
  let m := (5 * d + 2) / 153
  if m < 10 then ⟨year, m + 3, d - (153 * m + 2) / 5 + 1⟩
  else ⟨year + 1, m - 9, d - (153 * m + 2) / 5 + 1⟩

section

variable {year d : Nat} (hd : d ≤ 365) (hlast : d = 365 → IsLeap (year + 1))
include hd

/-- The days from the first of March up to a day. -/
lemma number_ofMarch (hyear : 1 ≤ year ∨ 306 ≤ d) :
    (ofMarch year d).number + 306 + year / 100 = 365 * year + year / 4 + year / 400 + d := by
  have hstart := yearsDays_add year
  obtain ⟨m, hm⟩ : ∃ m, (5 * d + 2) / 153 = m := ⟨_, rfl⟩
  have hle : m ≤ 11 := by omega
  rw [ofMarch, number, hm]
  by_cases hten : m < 10
  · obtain ⟨year, rfl⟩ : ∃ y, year = y + 1 := ⟨year - 1, by omega⟩
    rw [yearsDays] at hstart
    rw [if_pos hten]
    simp only [Nat.add_sub_cancel]
    have hmonths : monthsDays (year + 1) (m + 3 - 1) + 306
        = (if IsLeap (year + 1) then 366 else 365) + (153 * m + 2) / 5 := by
      interval_cases m <;> simp only [monthsDays, monthDays] <;> split <;> omega
    omega
  · rw [if_neg hten]
    have hmonths : monthsDays (year + 1) (m - 9 - 1) + 306 = (153 * m + 2) / 5 := by
      interval_cases m <;> simp [monthsDays, monthDays] at hten ⊢
    simp only [Nat.add_sub_cancel]
    omega

include hlast

lemma isValid_ofMarch (hyear : 1 ≤ year ∨ 306 ≤ d) : (ofMarch year d).IsValid := by
  obtain ⟨m, hm⟩ : ∃ m, (5 * d + 2) / 153 = m := ⟨_, rfl⟩
  have hle : m ≤ 11 := by omega
  rw [ofMarch, hm]
  by_cases hten : m < 10
  · rw [if_pos hten]
    have hday : d - (153 * m + 2) / 5 + 1 ≤ monthDays year (m + 3) := by
      interval_cases m <;> simp only [monthDays] <;> omega
    exact ⟨show 1 ≤ year by omega, ⟨Nat.le_add_left 1 _, show m + 3 ≤ 12 by omega⟩,
      Nat.le_add_left 1 _, hday⟩
  · rw [if_neg hten]
    have hday : d - (153 * m + 2) / 5 + 1 ≤ monthDays (year + 1) (m - 9) := by
      -- January and February, which is longer in a leap year.
      obtain rfl | rfl : m = 10 ∨ m = 11 := by omega
      · change _ ≤ 31
        omega
      · change _ ≤ if IsLeap (year + 1) then 29 else 28
        split
        · omega
        · next hleap =>
          have hshort := mt hlast hleap
          omega
    exact ⟨Nat.le_add_left 1 year, ⟨show 1 ≤ m - 9 by omega, show m - 9 ≤ 12 by omega⟩,
      Nat.le_add_left 1 _, hday⟩

end

end Date

namespace Instant

open Date

section

variable {n c q y d : Nat} (hn : n = 36524 * c + 1461 * q + 365 * y + d)
  (hq : q ≤ 24) (hy : y ≤ 3)
include hn hq hy

/-- The year of an era is found from the day in it. -/
lemma year_of_era (hc : c ≤ 3) (hd : d ≤ 365) (hlast : d = 365 → y = 3 ∧ (q = 24 → c = 3)) :
    ((n : Int) - n / 1460 + n / 36524 - n / 146096) / 365 = (100 * c + 4 * q + y : Nat) := by
  by_cases hend : n = 146096
  · have hparts : c = 3 ∧ q = 24 ∧ y = 3 := by omega
    obtain ⟨rfl, rfl, rfl⟩ := hparts
    rw [hend]
    decide
  · have hcentury : (n : Int) / 36524 = c := by omega
    have hera : (n : Int) / 146096 = 0 := by omega
    -- A fourth year without its last day is shorter than what the first division takes it for.
    obtain ⟨e, hspan, he⟩ : ∃ e : Nat, (n : Int) / 1460 = 25 * c + q + e ∧
        (e = 0 ∧ d < 365 ∨ e = 1 ∧ 1 ≤ d) := by
      by_cases hlong : 24 * c + q + 365 * y + d < 1460
      · exact ⟨0, by omega, by omega⟩
      · exact ⟨1, by omega, by omega⟩
    rw [hcentury, hera, hspan]
    omega

/-- The day of the year is found from its year. -/
lemma day_of_year :
    (n : Int) - (365 * (100 * c + 4 * q + y : Nat) + ((100 * c + 4 * q + y : Nat) : Int) / 4
      - ((100 * c + 4 * q + y : Nat) : Int) / 100) = d := by
  omega

lemma era_days (hc : c ≤ 3) {year : Nat} (era : Nat)
    (hyear : year = 100 * c + 4 * q + y + era * 400) :
    365 * year + year / 4 + year / 400 + d = 146097 * era + n + year / 100 := by
  omega

end

/-- The date that the calendar finds in an era. -/
lemma civil_of_era {days : Int} {era n year d : Nat} (hdays : days + 719468 = 146097 * era + n)
    (hn : n < 146097) (hyear : ((n : Int) - n / 1460 + n / 36524 - n / 146096) / 365 = year)
    (hday : (n : Int) - (365 * year + (year : Int) / 4 - (year : Int) / 100) = d)
    (hd : d ≤ 365) :
    let date := ofMarch (year + era * 400) d
    civil days = ((date.year : Int), (date.month : Int), (date.day : Int)) := by
  have hdiv : (days + 719468).fdiv 146097 = era := by
    rw [Int.fdiv_eq_ediv_of_nonneg _ (by decide)]
    omega
  have hmod : (days + 719468).fmod 146097 = n := by
    rw [Int.fmod_eq_emod_of_nonneg _ (by decide)]
    omega
  simp only [civil, hdiv, hmod, hyear, hday, ofMarch]
  clear hdays hdiv hmod hyear hday hn
  obtain ⟨m, hm⟩ : ∃ m, (5 * d + 2) / 153 = m := ⟨_, rfl⟩
  have hm' : (5 * (d : Int) + 2) / 153 = m := by omega
  have hfirst : (d : Int) - (153 * m + 2) / 5 + 1 = (d - (153 * m + 2) / 5 + 1 : Nat) := by omega
  rw [hm, hm', hfirst]
  by_cases hten : m < 10
  · have hten' : (m : Int) < 10 := by omega
    have hmarch : ¬ (m : Int) + 3 ≤ 2 := by omega
    rw [if_pos hten, if_pos hten', if_neg hmarch]
    exact Prod.ext (Int.add_zero _) rfl
  · have hten' : ¬ (m : Int) < 10 := by omega
    have hmonth : (m : Int) - 9 = (m - 9 : Nat) := by omega
    have hjanuary : ((m - 9 : Nat) : Int) ≤ 2 := by omega
    rw [if_neg hten, if_neg hten', hmonth, if_pos hjanuary]
    rfl

/-- The calendar finds the date of a day. -/
lemma civil_spec {days : Int} (h : -719162 ≤ days) :
    ∃ date : Date, date.IsValid ∧ (date.number : Int) = days + 719162 ∧
      civil days = ((date.year : Int), (date.month : Int), (date.day : Int)) := by
  obtain ⟨z, hz⟩ := Int.eq_ofNat_of_zero_le (show 0 ≤ days + 719468 by omega)
  obtain ⟨era, n, hera, hlt⟩ : ∃ era n, z = 146097 * era + n ∧ n < 146097 :=
    ⟨z / 146097, z % 146097, by omega, by omega⟩
  obtain ⟨c, q, y, d, hn, hc, hq, hy, hd, hlast⟩ := exists_era hlt
  have hleap : d = 365 → IsLeap (100 * c + 4 * q + y + era * 400 + 1) := by
    intro hday
    obtain ⟨rfl, hfull⟩ := hlast hday
    exact ⟨by omega, by omega⟩
  have hdate : 1 ≤ 100 * c + 4 * q + y + era * 400 ∨ 306 ≤ d := by omega
  have hnumber := number_ofMarch hd hdate
  rw [era_days hn hq hy hc era rfl] at hnumber
  exact ⟨_, isValid_ofMarch hd hleap hdate, by omega, civil_of_era (by omega) hlt
    (year_of_era hn hq hy hc hd hlast) (day_of_year hn hq hy) hd⟩

/-! ### The text -/

/-- The last decimal digits of a number, so many of them. -/
def digits : Nat → Nat → List Char
  | 0, _ => []
  | width + 1, n => digits width (n / 10) ++ [Nat.digitChar (n % 10)]

lemma digits_zero (width : Nat) : digits width 0 = List.replicate width '0' := by
  induction width with
  | zero => rfl
  | succ width ih =>
    rw [digits, Nat.zero_div, ih, List.replicate_succ']
    rfl

/-- A number between as many zeros and its digits. -/
lemma replicate_append_toDigits {n width : Nat} (h : n < 10 ^ (width + 1)) :
    List.replicate (width + 1 - (Nat.toDigits 10 n).length) '0' ++ Nat.toDigits 10 n
      = digits (width + 1) n := by
  induction width generalizing n with
  | zero =>
    have hsmall : n < 10 := h
    rw [Nat.toDigits_of_lt_base hsmall, digits, digits, Nat.mod_eq_of_lt hsmall]
    rfl
  | succ width ih =>
    by_cases hsmall : n < 10
    · rw [Nat.toDigits_of_lt_base hsmall, digits, Nat.div_eq_of_lt hsmall, digits_zero,
        Nat.mod_eq_of_lt hsmall]
      rfl
    · have hshorter : n / 10 < 10 ^ (width + 1) := by
        rw [Nat.div_lt_iff_lt_mul (by decide), ← Nat.pow_succ]
        exact h
      rw [Nat.toDigits_of_base_le (by decide) (not_lt.1 hsmall), digits, ← ih hshorter,
        List.length_append, List.length_singleton, Nat.add_sub_add_right, List.append_assoc]

lemma toList_pad (width : Nat) {n : Nat} (h : n < 10 ^ (width + 1)) :
    (pad (width + 1) n).toList = digits (width + 1) n := by
  have htext : (toString (n : Int).natAbs).toList = Nat.toDigits 10 n := by
    rw [Int.natAbs_natCast]
    exact String.toList_ofList
  have hlength : (toString (n : Int).natAbs).length = (Nat.toDigits 10 n).length := by
    rw [← String.length_toList, htext]
  rw [← replicate_append_toDigits h, pad, String.toList_append, String.toList_ofList, htext,
    hlength]

/-- A text names an instant in universal time: the date, the time of day, and the microseconds if
there are some. -/
def IsTimestamp (t : Instant) (text : String) : Prop :=
  ∃ (date : Date) (hour minute second : Nat),
    date.IsValid ∧ hour < 24 ∧ minute < 60 ∧ second < 60 ∧
    t.seconds = 86400 * ((date.number : Int) - (Date.number ⟨1970, 1, 1⟩ : Int))
      + 3600 * hour + 60 * minute + second ∧
    text.toList = digits 4 date.year ++ "-".toList ++ digits 2 date.month ++ "-".toList
      ++ digits 2 date.day ++ "T".toList ++ digits 2 hour ++ ":".toList ++ digits 2 minute
      ++ ":".toList ++ digits 2 second
      ++ (if t.micros = 0 then [] else ".".toList ++ digits 6 t.micros) ++ "+00:00".toList

/-- An instant of the years that have four digits. -/
structure IsDated (t : Instant) : Prop where
  first : -62135596800 ≤ t.seconds
  last : t.seconds < 253402300800
  micros : t.micros < 1000000

/-- **The timestamp of an instant names it.** -/
theorem isTimestamp_timestamp {t : Instant} (h : t.IsDated) : t.IsTimestamp t.timestamp := by
  have hstart : Date.number ⟨1970, 1, 1⟩ = 719162 := by decide +kernel
  obtain ⟨date, hvalid, hnumber, hcivil⟩ := civil_spec
    (show -719162 ≤ t.seconds / 86400 by have hfirst := h.first; omega)
  have hyear : date.year < 10 ^ (3 + 1) := by
    have hlast := h.last
    have hdays := yearsDays_add (date.year - 1)
    have hbefore : yearsDays (date.year - 1) ≤ date.number := by
      rw [number]
      omega
    omega
  have hmonth : date.month < 10 ^ (1 + 1) := by
    have hle := hvalid.month.2
    omega
  have hday : date.day < 10 ^ (1 + 1) := by
    have hle := hvalid.day.2
    have hlong := monthDays_le date.year date.month
    omega
  obtain ⟨hour, hhour, hour_eq⟩ : ∃ hour < 24, t.seconds % 86400 / 3600 = (hour : Nat) :=
    ⟨(t.seconds % 86400 / 3600).toNat, by omega, by omega⟩
  obtain ⟨minute, hminute, minute_eq⟩ :
      ∃ minute < 60, t.seconds % 86400 / 60 % 60 = (minute : Nat) :=
    ⟨(t.seconds % 86400 / 60 % 60).toNat, by omega, by omega⟩
  obtain ⟨second, hsecond, second_eq⟩ : ∃ second < 60, t.seconds % 86400 % 60 = (second : Nat) :=
    ⟨(t.seconds % 86400 % 60).toNat, by omega, by omega⟩
  refine ⟨date, hour, minute, second, hvalid, hhour, hminute, hsecond,
    by rw [hstart]; omega, ?_⟩
  have hfraction : (if t.micros = 0 then "" else "." ++ pad 6 t.micros).toList
      = if t.micros = 0 then [] else ".".toList ++ digits 6 t.micros := by
    split
    · rfl
    · rw [String.toList_append, toList_pad 5 h.micros]
  rw [timestamp, dateTime, Int.fdiv_eq_ediv_of_nonneg _ (by decide), hcivil,
    Int.fmod_eq_emod_of_nonneg _ (by decide)]
  dsimp only
  rw [hour_eq, minute_eq, second_eq]
  simp only [String.toList_append, hfraction, toList_pad 3 hyear, toList_pad 1 hmonth,
    toList_pad 1 hday, toList_pad 1 (show hour < 10 ^ (1 + 1) by omega),
    toList_pad 1 (show minute < 10 ^ (1 + 1) by omega),
    toList_pad 1 (show second < 10 ^ (1 + 1) by omega)]

end Instant

end StellarWallet
