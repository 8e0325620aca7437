import Chronomap.Calendar.Gregorian

/-!
# Calendar dates

A date is a year, a month and a day of that month; `dayNumber` counts it from 1970-01-01.
The two views determine each other:

    (Date.ofDayNumber n).dayNumber = n      (Date.dayNumber_ofDayNumber)
    Date.ofDayNumber d.dayNumber = d        (Date.ofDayNumber_dayNumber)
-/

namespace Chronomap

/-- A day of the proleptic Gregorian calendar. -/
structure Date where
  year : Int
  /-- January is 1. -/
  month : Nat
  day : Nat
  month_mem : 1 ≤ month ∧ month ≤ 12
  day_mem : 1 ≤ day ∧ day ≤ monthLength year month
deriving DecidableEq

/-! ## Algorithm -/

/-- The month and the day of the month reached `k` days after the first of month `m`, looking
at `later` further months at most. -/
def monthAndDay (y : Int) : (later m k : Nat) → Nat × Nat
  | 0, m, k => (m, k + 1)
  | later + 1, m, k =>
    if k < monthLength y m then (m, k + 1) else monthAndDay y later (m + 1) (k - monthLength y m)

/-- What `monthAndDay` finds: a day of a month, as many days into the year as asked. -/
theorem monthAndDay_spec (y : Int) (later : Nat) : ∀ m k, m + later = 12 → 1 ≤ m →
    daysBeforeMonth y m + k < yearLength y →
    m ≤ (monthAndDay y later m k).1 ∧ (monthAndDay y later m k).1 ≤ 12 ∧
      1 ≤ (monthAndDay y later m k).2 ∧
      (monthAndDay y later m k).2 ≤ monthLength y (monthAndDay y later m k).1 ∧
      daysBeforeMonth y (monthAndDay y later m k).1 + (monthAndDay y later m k).2 =
        daysBeforeMonth y m + k + 1 := by
  induction later with
  | zero =>
    intro m k hm _ hk
    obtain rfl : m = 12 := by omega
    have h13 := daysBeforeMonth_thirteen y
    rw [daysBeforeMonth_succ y (by omega : 0 < 12)] at h13
    simp only [monthAndDay]
    omega
  | succ later ih =>
    intro m k hm h1 hk
    simp only [monthAndDay]
    split
    · refine ⟨?_, ?_, ?_, ?_, ?_⟩ <;> dsimp only <;> omega
    · have hs := daysBeforeMonth_succ y (m := m) (by omega)
      have := ih (m + 1) (k - monthLength y m) (by omega) (by omega) (by omega)
      omega

/-- The days of year `yearOfDay n` that precede day `n` are fewer than the year has. -/
theorem daysIntoYear_lt (n : Int) :
    daysBeforeMonth (yearOfDay n) 1 + (n - yearStart (yearOfDay n)).toNat <
      yearLength (yearOfDay n) := by
  have h := yearLength_eq (yearOfDay n)
  have hl := yearStart_yearOfDay_le n
  have hr := lt_yearStart_yearOfDay n
  have h1 : daysBeforeMonth (yearOfDay n) 1 = 0 := rfl
  omega

namespace Date

/-- Days from 1970-01-01. -/
def dayNumber (d : Date) : Int := yearStart d.year + daysBeforeMonth d.year d.month + d.day - 1

/-- Days from January 1 of the date's year. -/
def dayOfYear (d : Date) : Nat := daysBeforeMonth d.year d.month + d.day - 1

/-- The date of a day number: its year, and then the month that the days left over fall in. -/
def ofDayNumber (n : Int) : Date :=
  let found := monthAndDay (yearOfDay n) 11 1 (n - yearStart (yearOfDay n)).toNat
  have spec := monthAndDay_spec (yearOfDay n) 11 1 _ rfl (Nat.le_refl 1) (daysIntoYear_lt n)
  { year := yearOfDay n, month := found.1, day := found.2
    month_mem := ⟨spec.1, spec.2.1⟩, day_mem := ⟨spec.2.2.1, spec.2.2.2.1⟩ }

/-! ## Lemmas -/

theorem dayNumber_ofDayNumber (n : Int) : (ofDayNumber n).dayNumber = n := by
  have spec := monthAndDay_spec (yearOfDay n) 11 1 _ rfl (Nat.le_refl 1) (daysIntoYear_lt n)
  have hl := yearStart_yearOfDay_le n
  have h1 : daysBeforeMonth (yearOfDay n) 1 = 0 := rfl
  simp only [dayNumber, ofDayNumber]
  omega

theorem daysBeforeMonth_mono (y : Int) {m n : Nat} (h : m ≤ n) :
    daysBeforeMonth y m ≤ daysBeforeMonth y n := by
  induction h with
  | refl => exact Nat.le_refl _
  | @step k _ ih =>
    cases k with
    | zero => exact Nat.le_trans ih (Nat.le_refl _)
    | succ k => rw [daysBeforeMonth_succ y (by omega : 0 < k + 1)]; omega

theorem day_le_daysBeforeMonth_succ (d : Date) :
    daysBeforeMonth d.year d.month + d.day ≤ daysBeforeMonth d.year (d.month + 1) := by
  rw [daysBeforeMonth_succ d.year (by have := d.month_mem; omega)]
  have := d.day_mem
  omega

theorem dayOfYear_lt (d : Date) : d.dayOfYear < yearLength d.year := by
  have h := d.day_le_daysBeforeMonth_succ
  have hm := daysBeforeMonth_mono d.year (m := d.month + 1) (n := 13)
    (by have := d.month_mem; omega)
  rw [daysBeforeMonth_thirteen] at hm
  have := d.day_mem
  unfold dayOfYear
  omega

theorem yearOfDay_dayNumber (d : Date) : yearOfDay d.dayNumber = d.year := by
  have h := d.dayOfYear_lt
  have hl := yearLength_eq d.year
  have hd := d.day_mem
  unfold dayOfYear at h
  apply yearOfDay_eq <;> unfold dayNumber <;> omega

/-- Two dates of one year that are equally many days into it are the same. -/
theorem eq_of_dayOfYear {d e : Date} (hy : d.year = e.year)
    (h : daysBeforeMonth d.year d.month + d.day = daysBeforeMonth e.year e.month + e.day) :
    d = e := by
  have hd := d.day_le_daysBeforeMonth_succ
  have he := e.day_le_daysBeforeMonth_succ
  have hd1 := d.day_mem
  have he1 := e.day_mem
  obtain ⟨y, m, k, hm, hk⟩ := d
  obtain ⟨y', m', k', hm', hk'⟩ := e
  obtain rfl : y = y' := hy
  dsimp only at *
  -- The days of a month are all before those of the next one.
  have hmm : m = m' := by
    rcases Nat.lt_trichotomy m m' with hlt | heq | hgt
    · have := daysBeforeMonth_mono y (m := m + 1) (n := m') (by omega)
      omega
    · exact heq
    · have := daysBeforeMonth_mono y (m := m' + 1) (n := m) (by omega)
      omega
  subst hmm
  obtain rfl : k = k' := by omega
  rfl

theorem dayNumber_inj {d e : Date} (h : d.dayNumber = e.dayNumber) : d = e := by
  have hy : d.year = e.year := by
    rw [← yearOfDay_dayNumber d, h, yearOfDay_dayNumber e]
  apply eq_of_dayOfYear hy
  unfold dayNumber at h
  rw [hy] at h ⊢
  omega

theorem ofDayNumber_dayNumber (d : Date) : ofDayNumber d.dayNumber = d :=
  dayNumber_inj (dayNumber_ofDayNumber d.dayNumber)

end Date

end Chronomap
