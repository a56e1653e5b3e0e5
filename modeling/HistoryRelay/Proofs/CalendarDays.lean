import Mathlib
import HistoryRelay.Timestamp

/-! The calendar counts days both ways. Main statement: the date of a day number is a valid date
and has that number. -/
namespace HistoryRelay.Date

/-- The date of a day of a count year, its first of March being day zero. -/
def ofCountYear (year day : Int) : Date :=
  let month := (5 * day + 2) / 153
  ⟨if month < 10 then year else year + 1, (if month < 10 then month + 3 else month - 9).toNat,
    (day - (153 * month + 2) / 5 + 1).toNat⟩

/-- The year within four years. Its last day makes the fourth year one longer. -/
def yearOfFour (day : Int) : Int := if day = 1460 then 3 else day / 365

/-- A day in its era of 400 years, its century, its four years. Only the last century has a leap
day at its end. -/
structure Place where
  era : Int
  century : Int
  fourth : Int
  day : Int
  century_mem : 0 ≤ century ∧ century ≤ 3
  fourth_mem : 0 ≤ fourth ∧ fourth ≤ 24
  day_mem : 0 ≤ day ∧ day ≤ 1460
  leap : day = 1460 → century = 3 ∨ fourth < 24

namespace Place
variable (p : Place)

def dayOfEra : Int := 36524 * p.century + 1461 * p.fourth + p.day

def yearOfEra : Int := 100 * p.century + 4 * p.fourth + yearOfFour p.day

def dayOfYear : Int := p.day - 365 * yearOfFour p.day

theorem yearOfFour_mem : 0 ≤ yearOfFour p.day ∧ yearOfFour p.day ≤ 3 := by
  have := p.day_mem
  unfold yearOfFour
  split <;> omega

theorem dayOfYear_mem : 0 ≤ p.dayOfYear ∧ p.dayOfYear ≤ 365 := by
  have := p.day_mem
  unfold dayOfYear yearOfFour
  split <;> omega

theorem yearOfEra_mem : 0 ≤ p.yearOfEra ∧ p.yearOfEra ≤ 399 := by
  have := p.century_mem
  have := p.fourth_mem
  have := p.yearOfFour_mem
  unfold yearOfEra
  omega

theorem exists_place (days : Int) :
    ∃ p : Place, days = p.era * 146097 + p.dayOfEra - 719468 := by
  let shifted := days + 719468
  by_cases hlast : shifted % 146097 = 146096
  · refine ⟨⟨shifted / 146097, 3, 24, 1460, by decide, by decide, by decide, by simp⟩, ?_⟩
    simp only [dayOfEra, shifted] at hlast ⊢
    omega
  · refine ⟨⟨shifted / 146097, shifted % 146097 / 36524, shifted % 146097 % 36524 / 1461,
      shifted % 146097 % 36524 % 1461, by omega, by omega, by omega, by omega⟩, ?_⟩
    simp only [dayOfEra, shifted]
    omega

/-- How many days of leap years the calendar counts before a day of an era. -/
theorem year_formula : (p.dayOfEra - p.dayOfEra / 1460 + p.dayOfEra / 36524 -
    p.dayOfEra / 146096) / 365 = p.yearOfEra := by
  obtain ⟨era, c, q, s, hc, hq, hs, hleap⟩ := p
  simp only [dayOfEra, yearOfEra, yearOfFour]
  by_cases hlast : c = 3 ∧ q = 24 ∧ s = 1460
  · obtain ⟨rfl, rfl, rfl⟩ := hlast
    decide
  have hin : q < 24 ∨ s < 1460 := by omega
  have hcentury : (36524 * c + 1461 * q + s) / 36524 = c := by omega
  have hera : (36524 * c + 1461 * q + s) / 146096 = 0 := by omega
  rw [hcentury, hera]
  by_cases hcarry : 1460 ≤ 24 * c + q + s
  · have hfours : (36524 * c + 1461 * q + s) / 1460 = 25 * c + q + 1 := by omega
    rw [hfours]
    split <;> omega
  · have hfours : (36524 * c + 1461 * q + s) / 1460 = 25 * c + q := by omega
    rw [hfours]
    split <;> omega

theorem dayOfEra_eq :
    p.dayOfEra = 365 * p.yearOfEra + p.yearOfEra / 4 - p.yearOfEra / 100 + p.dayOfYear := by
  have := p.fourth_mem
  have := p.yearOfFour_mem
  simp only [dayOfEra, yearOfEra, dayOfYear]
  omega

theorem ofDays_eq {days : Int} (h : days = p.era * 146097 + p.dayOfEra - 719468) :
    ofDays days = ofCountYear (p.yearOfEra + p.era * 400) p.dayOfYear := by
  have hera : (days + 719468) / 146097 = p.era := by
    have := p.century_mem
    have := p.fourth_mem
    have := p.day_mem
    have := p.leap
    simp only [dayOfEra] at h
    omega
  have hday : days + 719468 - p.era * 146097 = p.dayOfEra := by omega
  have hyear : p.dayOfEra - (365 * p.yearOfEra + p.yearOfEra / 4 - p.yearOfEra / 100) =
      p.dayOfYear := by
    have := p.dayOfEra_eq
    omega
  have := p.dayOfYear_mem
  simp only [ofDays, hera, hday, p.year_formula, hyear, ofCountYear]
  congr 1
  split <;> split <;> omega

/-- A count year that ends with a leap day is the one before a leap year. -/
theorem leap_of_dayOfYear (h : p.dayOfYear = 365) :
    isLeapYear (p.yearOfEra + p.era * 400 + 1) = true := by
  obtain ⟨era, c, q, s, hc, hq, hs, hleap⟩ := p
  simp only [dayOfYear, yearOfEra, yearOfFour] at h ⊢
  have hlast : s = 1460 := by
    split at h <;> omega
  have hplace := hleap hlast
  simp only [isLeapYear, hlast, if_true, Bool.and_eq_true, Bool.or_eq_true, decide_eq_true_eq]
  omega

end Place

section CountYear
variable {era year day : Int} (hday : 0 ≤ day ∧ day ≤ 365)
include hday

theorem toDays_ofCountYear (hyear : 0 ≤ year ∧ year ≤ 399) :
    (ofCountYear (year + era * 400) day).toDays =
      era * 146097 + (365 * year + year / 4 - year / 100 + day) - 719468 := by
  obtain ⟨month, hm⟩ : ∃ m, (5 * day + 2) / 153 = m := ⟨_, rfl⟩
  have hera : (year + era * 400) / 400 = era := by omega
  have hofEra : year + era * 400 - era * 400 = year := by omega
  by_cases hlow : month < 10
  · have hlate : ¬(month + 3).toNat ≤ 2 := by omega
    have hback : (((month + 3).toNat : Int) + 9) % 12 = month := by omega
    simp only [ofCountYear, toDays, hm, if_pos hlow, if_neg hlate, hback, hera, hofEra]
    omega
  · have hearly : (month - 9).toNat ≤ 2 := by omega
    have hback : (((month - 9).toNat : Int) + 9) % 12 = month := by omega
    have hsame : year + era * 400 + 1 - 1 = year + era * 400 := by omega
    simp only [ofCountYear, toDays, hm, if_neg hlow, if_pos hearly, hback, hsame, hera, hofEra]
    omega

theorem valid_ofCountYear (hleap : day = 365 → isLeapYear (year + 1) = true) :
    (ofCountYear year day).Valid := by
  obtain ⟨month, hm⟩ : ∃ m, (5 * day + 2) / 153 = m := ⟨_, rfl⟩
  by_cases hlow : month < 10
  · simp only [ofCountYear, Valid, daysInMonth, hm, if_pos hlow]
    refine ⟨by omega, by omega, by omega, ?_⟩
    rw [if_neg (by omega)]
    split <;> omega
  · simp only [ofCountYear, Valid, daysInMonth, hm, if_neg hlow]
    refine ⟨by omega, by omega, by omega, ?_⟩
    split
    · by_cases hlast : day = 365
      · rw [if_pos (hleap hlast)]
        omega
      · split <;> omega
    · rw [if_neg (by omega)]
      omega

end CountYear

theorem toDays_ofDays (days : Int) : (ofDays days).toDays = days := by
  obtain ⟨p, hp⟩ := Place.exists_place days
  rw [p.ofDays_eq hp, toDays_ofCountYear p.dayOfYear_mem p.yearOfEra_mem, ← p.dayOfEra_eq, hp]

theorem valid_ofDays (days : Int) : (ofDays days).Valid := by
  obtain ⟨p, hp⟩ := Place.exists_place days
  rw [p.ofDays_eq hp]
  exact valid_ofCountYear p.dayOfYear_mem p.leap_of_dayOfYear

theorem toDays_newYear (year : Int) : toDays ⟨year, 1, 1⟩ = (year - 1) / 400 * 146097 +
    (365 * ((year - 1) % 400) + (year - 1) % 400 / 4 - (year - 1) % 400 / 100 + 306) - 719468 := by
  simp only [toDays]
  omega

theorem le_year_ofDays_iff {year days : Int} :
    year ≤ (ofDays days).year ↔ toDays ⟨year, 1, 1⟩ ≤ days := by
  obtain ⟨p, hp⟩ := Place.exists_place days
  have hdays := p.dayOfEra_eq
  have hyear := p.yearOfEra_mem
  have hday := p.dayOfYear_mem
  rw [toDays_newYear, p.ofDays_eq hp, ofCountYear]
  by_cases hlow : (5 * p.dayOfYear + 2) / 153 < 10
  · simp only [if_pos hlow]
    omega
  · simp only [if_neg hlow]
    omega

end HistoryRelay.Date

namespace HistoryRelay.Timestamp
open Date

theorem year_mem (t : Timestamp) : firstYear ≤ t.date.year ∧ t.date.year ≤ lastYear := by
  have hfirst := t.first_le
  have hlast := t.le_last
  simp only [firstSecond, lastSecond] at hfirst hlast
  constructor
  · have hstart : toDays ⟨firstYear, 1, 1⟩ = -96465292 := by decide
    rw [date, le_year_ofDays_iff, hstart]
    omega
  · -- The year after the last one starts beyond the last second.
    have hend : toDays ⟨lastYear + 1, 1, 1⟩ = 95026237 := by decide
    rw [← Int.lt_add_one_iff, ← Int.not_le, date, le_year_ofDays_iff, hend]
    omega

end HistoryRelay.Timestamp
