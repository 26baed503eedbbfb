import ControlPlane.Time.Civil
import Mathlib.Tactic

/-! # The calendar counts every day once

The date of a day number leads back to the number (`toDays_ofDays`).  Inside an era the year is
found by a division that makes up for the leap days before the day; that it hits the right year
follows from its value on the first and the last day of each year, for it never goes down from one
day to the next. -/

namespace ControlPlane.Time

namespace Date

/-! ### Years of an era -/

/-- The days of an era before a year of it. -/
def yearStart (year : ℕ) : ℕ := 365 * year + year / 4 - year / 100

/-- The days of an era up to a day, less the leap days among them. -/
def commonDays (day : ℕ) : ℕ := day - day / 1460 + day / 36524 - day / 146096

theorem commonDays_le_succ {day : ℕ} (h : day + 1 < 146097) :
    commonDays day ≤ commonDays (day + 1) := by
  unfold commonDays
  omega

theorem commonDays_mono {a b : ℕ} (hab : a ≤ b) (hb : b < 146097) :
    commonDays a ≤ commonDays b := by
  induction b, hab using Nat.le_induction with
  | base => exact le_rfl
  | succ b hab ih => exact (ih (by omega)).trans (commonDays_le_succ hb)

/-- The first day of a year has the common days of the years before it, the last day has fewer than
those of the years up to it. -/
theorem commonDays_yearStart : ∀ year < 400,
    365 * year ≤ commonDays (yearStart year) ∧
      commonDays (yearStart (year + 1) - 1) < 365 * (year + 1) := by
  decide +kernel

theorem yearStart_succ_le (year : ℕ) : yearStart (year + 1) ≤ yearStart year + 366 := by
  unfold yearStart
  omega

/-- The division finds the year that a day lies in. The last day of the last year is one more than
the years before it account for. -/
theorem year_of_day {day : ℕ} (hday : day < 146097) :
    commonDays day / 365 < 400 ∧ yearStart (commonDays day / 365) ≤ day ∧
      day ≤ yearStart (commonDays day / 365) + 365 := by
  generalize hyear : commonDays day / 365 = year
  have hlast : commonDays day ≤ commonDays 146096 := commonDays_mono (by omega) (by decide)
  have hbound : commonDays 146096 < 146000 := by decide
  have hlt : year < 400 := by omega
  refine ⟨hlt, ?_, ?_⟩
  · by_contra hbefore
    obtain ⟨previous, rfl⟩ : ∃ p, year = p + 1 := by
      refine ⟨year - 1, ?_⟩
      have hzero : yearStart 0 = 0 := rfl
      have : year ≠ 0 := by
        rintro rfl
        omega
      omega
    have hcommon := (commonDays_yearStart previous (by omega)).2
    have hstart : yearStart (previous + 1) ≤ 146097 := by
      unfold yearStart
      omega
    have := commonDays_mono (a := day) (b := yearStart (previous + 1) - 1) (by omega) (by omega)
    omega
  · by_contra hafter
    have hspan := yearStart_succ_le year
    by_cases hfinal : year + 1 < 400
    · have hcommon := (commonDays_yearStart (year + 1) hfinal).1
      have := commonDays_mono (a := yearStart (year + 1)) (b := day) (by omega) hday
      omega
    · have hend : year = 399 := by omega
      have hlastStart : yearStart 399 = 145731 := rfl
      rw [hend, hlastStart] at hafter
      omega

/-! ### Days -/

/-- The date of a day of a year of an era; both start in March. -/
def inEra (era : ℤ) (year day : ℕ) : Date :=
  let monthFromMarch := (5 * day + 2) / 153
  let month := if monthFromMarch < 10 then monthFromMarch + 3 else monthFromMarch - 9
  let march := Int.ofNat year + era * 400
  ⟨if month ≤ 2 then march + 1 else march, month, day - (153 * monthFromMarch + 2) / 5 + 1⟩

theorem ofDays_eq_inEra (days : ℤ) :
    ofDays days =
      let day := ((days + 719468) % 146097).toNat
      let year := commonDays day / 365
      inEra ((days + 719468) / 146097) year (day - yearStart year) := rfl

theorem toDays_inEra (era : ℤ) {year day : ℕ} (hyear : year < 400) (hday : day ≤ 365) :
    (inEra era year day).toDays = era * 146097 + yearStart year + day - 719468 := by
  have hstart : (yearStart year : ℤ) = year * 365 + year / 4 - year / 100 := by
    unfold yearStart
    omega
  have hera : (year + era * 400) / 400 = era ∧ (year + era * 400) % 400 = year := by omega
  unfold inEra
  generalize hmonth : (5 * day + 2) / 153 = month
  have hday' : (153 * month + 2) / 5 ≤ day := by omega
  have hback : (153 * month + 2) / 5 + (day - (153 * month + 2) / 5 + 1) - 1 = day := by omega
  unfold toDays
  simp only [Int.ofNat_eq_natCast]
  by_cases hearly : month < 10
  · have hcycle : (month + 3 + 9) % 12 = month := by omega
    have hlate : ¬month + 3 ≤ 2 := by omega
    simp only [if_pos hearly, if_neg hlate, hcycle, hback, hera]
    omega
  · have hcycle : (month - 9 + 9) % 12 = month := by omega
    have hlate : month - 9 ≤ 2 := by omega
    simp only [if_neg hearly, if_pos hlate, hcycle, hback, add_sub_cancel_right, hera]
    omega

theorem toDays_ofDays (days : ℤ) : (ofDays days).toDays = days := by
  rw [ofDays_eq_inEra]
  dsimp only
  generalize hday : ((days + 719468) % 146097).toNat = day
  have hlt : day < 146097 := by omega
  obtain ⟨hyear, hstart, hend⟩ := year_of_day hlt
  rw [toDays_inEra _ hyear (by omega)]
  omega

end Date

end ControlPlane.Time
