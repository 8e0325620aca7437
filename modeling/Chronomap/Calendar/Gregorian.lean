/-!
# The proleptic Gregorian calendar

Years are astronomical, so year 0 exists and is a leap year.  Days are counted from
1970-01-01, which is day 0.

    yearStart (yearOfDay n) ≤ n      (yearStart_yearOfDay_le)
    n < yearStart (yearOfDay n + 1)  (lt_yearStart_yearOfDay)
-/

namespace Chronomap

/-! ## Years -/

/-- Every fourth year is a leap year, of the hundreds only every fourth. -/
def isLeapYear (y : Int) : Bool := y % 4 == 0 && (y % 100 != 0 || y % 400 == 0)

def yearLength (y : Int) : Nat := if isLeapYear y then 366 else 365

/-- The day number of January 1 of year `y`; January 1 of year 1 is day −719162. -/
def yearStart (y : Int) : Int :=
  365 * (y - 1) + (y - 1) / 4 - (y - 1) / 100 + (y - 1) / 400 - 719162

/-- The year that day `n` falls in: 400 years have 146097 days, and the year estimated from
that mean is wrong by at most one. -/
def yearOfDay (n : Int) : Int :=
  let y := (n + 719162) * 400 / 146097 + 1
  if n < yearStart y then y - 1 else if yearStart (y + 1) ≤ n then y + 1 else y

/-! ## Months -/

/-- Days of month `m` (January is 1) of year `y`. -/
def monthLength (y : Int) : Nat → Nat
  | 2 => if isLeapYear y then 29 else 28
  | 4 | 6 | 9 | 11 => 30
  | _ => 31

/-- Days of year `y` before month `m` (January is 1). -/
def daysBeforeMonth (y : Int) : Nat → Nat
  | 0 | 1 => 0
  | m + 2 => daysBeforeMonth y (m + 1) + monthLength y (m + 1)

/-! ## Lemmas -/

theorem yearLength_eq (y : Int) : (yearLength y : Int) = yearStart (y + 1) - yearStart y := by
  simp only [yearLength, isLeapYear, yearStart, Bool.and_eq_true, Bool.or_eq_true, beq_iff_eq,
    bne_iff_ne]
  split <;> omega

/-- The year estimated from the mean length is at most one year off. -/
theorem yearStart_estimate (n : Int) :
    yearStart ((n + 719162) * 400 / 146097 + 1 - 1) ≤ n ∧
      n < yearStart ((n + 719162) * 400 / 146097 + 1 + 1 + 1) := by
  generalize h : (n + 719162) * 400 / 146097 = y
  simp only [yearStart]
  omega

theorem yearStart_yearOfDay_le (n : Int) : yearStart (yearOfDay n) ≤ n := by
  have h := yearStart_estimate n
  unfold yearOfDay
  simp only
  split
  · exact h.1
  · split <;> omega

theorem lt_yearStart_yearOfDay (n : Int) : n < yearStart (yearOfDay n + 1) := by
  have h := yearStart_estimate n
  unfold yearOfDay
  simp only
  split
  · rwa [Int.sub_add_cancel]
  · split
    · exact h.2
    · omega

theorem yearStart_le_yearStart {y z : Int} (h : y ≤ z) : yearStart y ≤ yearStart z := by
  simp only [yearStart]
  omega

/-- A day falls in one year only. -/
theorem yearOfDay_eq {n y : Int} (h : yearStart y ≤ n) (h' : n < yearStart (y + 1)) :
    yearOfDay n = y := by
  have hl := yearStart_yearOfDay_le n
  have hr := lt_yearStart_yearOfDay n
  rcases Int.lt_trichotomy (yearOfDay n) y with hlt | heq | hgt
  · have := @yearStart_le_yearStart (yearOfDay n + 1) y (by omega)
    omega
  · exact heq
  · have := @yearStart_le_yearStart (y + 1) (yearOfDay n) (by omega)
    omega

theorem monthLength_pos (y : Int) (m : Nat) : 0 < monthLength y m := by
  unfold monthLength
  repeat' split
  all_goals omega

theorem monthLength_le (y : Int) (m : Nat) : monthLength y m ≤ 31 := by
  unfold monthLength
  repeat' split
  all_goals omega

theorem daysBeforeMonth_succ (y : Int) {m : Nat} (h : 0 < m) :
    daysBeforeMonth y (m + 1) = daysBeforeMonth y m + monthLength y m := by
  cases m with
  | zero => omega
  | succ m => rfl

/-- December ends with the year. -/
theorem daysBeforeMonth_thirteen (y : Int) : daysBeforeMonth y 13 = yearLength y := by
  simp only [daysBeforeMonth, monthLength, yearLength]
  split <;> rfl

end Chronomap
