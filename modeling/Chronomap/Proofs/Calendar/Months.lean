import Chronomap.Proofs.Calendar.TextOrder

/-!
# Months and days counted on

Months are counted on over the years: month `m` of year `y`, where January of `y` is month 0, is a
month of the calendar for every `m`, in the year `y + m / 12`.  The months follow each other without
a gap, so a month ends where the next one starts:

    (firstOf y (m + 1)).dayNumber =
      (firstOf y m).dayNumber + (firstOf y m).lengthOfMonth       (Date.dayNumber_firstOf_succ)
    (firstOf y m).dayNumber < (firstOf y n).dayNumber ↔ m < n     (Date.dayNumber_firstOf_lt_iff)

Days are counted on from the first of their month (`civilDay`), which is where `ofCivil?` arrives
(`Instant.isMidnight_civilDay`).
-/

namespace Chronomap

namespace Date

/-- Months counted on over the years, so that January of year 0 is month 1. -/
def months (d : Date) : Int := 12 * d.year + d.month

/-- The first day of a month that is counted on over the years. -/
def IsFirstOf (n : Int) (d : Date) : Prop := d.months = n ∧ d.day = 1

/-- The first of month `m` of year `y`, where January of `y` is month 0. -/
def firstOf (y m : Int) : Date where
  year := y + m / 12
  month := (m % 12).toNat + 1
  day := 1
  month_mem := by omega
  day_mem := ⟨Nat.le_refl 1, monthLength_pos _ _⟩

def lengthOfMonth (d : Date) : Nat := monthLength d.year d.month

theorem months_firstOf (y m : Int) : (firstOf y m).months = 12 * y + m + 1 := by
  simp only [months, firstOf]
  omega

theorem isFirstOf_firstOf {y m n : Int} (h : 12 * y + m + 1 = n) : (firstOf y m).IsFirstOf n :=
  ⟨(months_firstOf y m).trans h, rfl⟩

theorem dayNumber_firstOf (y m : Int) : (firstOf y m).dayNumber = Instant.firstOfMonth y m := by
  simp only [dayNumber, firstOf, Instant.firstOfMonth]
  omega

theorem dayNumber_lt_of_months_lt {d e : Date} (h : d.months < e.months) :
    d.dayNumber < e.dayNumber := by
  have hd := d.month_mem
  have he := e.month_mem
  unfold months at h
  rw [dayNumber_lt_iff]
  omega

/-- Months counted on are ordered like their numbers. -/
theorem dayNumber_firstOf_lt_iff {y m n : Int} :
    (firstOf y m).dayNumber < (firstOf y n).dayNumber ↔ m < n := by
  have hlt : ∀ {m n : Int}, m < n → (firstOf y m).dayNumber < (firstOf y n).dayNumber := by
    intro m n h
    refine dayNumber_lt_of_months_lt ?_
    rw [months_firstOf, months_firstOf]
    omega
  refine ⟨fun h => ?_, hlt⟩
  rcases Int.lt_trichotomy m n with hmn | rfl | hnm
  · exact hmn
  · exact absurd h (Int.lt_irrefl _)
  · exact absurd (hlt hnm) (Int.not_lt.2 (Int.le_of_lt h))

/-- The next month starts after the days of this one. -/
theorem dayNumber_firstOf_succ (y m : Int) :
    (firstOf y (m + 1)).dayNumber =
      (firstOf y m).dayNumber + (firstOf y m).lengthOfMonth := by
  simp only [dayNumber, lengthOfMonth, firstOf]
  by_cases hdecember : m % 12 = 11
  · -- After December comes January of the next year.
    have hyear : y + (m + 1) / 12 = y + m / 12 + 1 := by omega
    have hmonth : ((m + 1) % 12).toNat = 0 := by omega
    have hlast : (m % 12).toNat = 11 := by omega
    have hjanuary : daysBeforeMonth (y + m / 12 + 1) (0 + 1) = 0 := rfl
    have hlength := yearLength_eq (y + m / 12)
    rw [← daysBeforeMonth_thirteen, daysBeforeMonth_succ _ (by decide : 0 < 11 + 1)] at hlength
    rw [hyear, hmonth, hlast, hjanuary]
    omega
  · have hyear : (m + 1) / 12 = m / 12 := by omega
    have hmonth : ((m + 1) % 12).toNat = (m % 12).toNat + 1 := by omega
    rw [hyear, hmonth, daysBeforeMonth_succ _ (by omega : 0 < (m % 12).toNat + 1)]
    omega

/-- Twelve months are a year. -/
theorem firstOf_add_years (y m k : Int) : firstOf y (m + 12 * k) = firstOf (y + k) m := by
  have hyear : y + (m + 12 * k) / 12 = y + k + m / 12 := by omega
  have hmonth : ((m + 12 * k) % 12).toNat = (m % 12).toNat := by omega
  simp only [firstOf, hyear, hmonth]

end Date

/-! ## Days counted on -/

/-- The number of day `d` of month `m` (January is 0) of year `y`, counted on from the first of the
month. -/
def civilDay (y m d : Int) : Int := (Date.firstOf y m).dayNumber + (d - 1)

theorem civilDay_one (y m : Int) : civilDay y m 1 = (Date.firstOf y m).dayNumber :=
  Int.add_zero _

namespace Instant

theorem ofCivil?_eq (y m d : Int) :
    ofCivil? y m d =
      (midnight? (Date.firstOf y m).dayNumber).bind fun _ => midnight? (civilDay y m d) := by
  rw [ofCivil?, civilDay, Date.dayNumber_firstOf]

theorem isMidnight_civilDay {y m d : Int} {t : Instant} (h : ofCivil? y m d = some t) :
    t.IsMidnight (civilDay y m d) := by
  rw [civilDay, Date.dayNumber_firstOf]
  exact isMidnight_of_ofCivil? h

theorem ofCivil?_add_years (y m k d : Int) :
    ofCivil? y (m + 12 * k) d = ofCivil? (y + k) m d := by
  rw [ofCivil?_eq, ofCivil?_eq, civilDay, civilDay, Date.firstOf_add_years]

end Instant

end Chronomap
