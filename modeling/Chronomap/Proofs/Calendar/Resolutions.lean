import Chronomap.Proofs.Calendar.Months
import Chronomap.Proofs.Calendar.Notation

/-!
# The resolutions of a date

A date in writing is a year, a year and a month, or a year, a month and a day.  The text of a day
holds the texts of its month and of its year, and cutting it short resolves to them:

    ofString? (year ++ "-" ++ month ++ "-" ++ day) = some (.day y m d) →
      ofString? (year ++ "-" ++ month) = some (.month y m) ∧
        ofString? year = some (.year y)                      (WrittenDate.ofString?_resolutions)

The instants that a date of the calendar starts and finishes with fall on the days that the parts
of the date say (`WrittenDate.parts_of_start?`, `WrittenDate.parts_of_finish?`).
-/

namespace Chronomap

/-! ## Texts -/

namespace WrittenDate

/-- A text that spells a day is cut short before its day and before its month. -/
theorem Spells.resolutions {before month day : List Char} {y : Int} {m d : Nat}
    (hmonth : month.length = 2) (hday : day.length = 2)
    (h : Spells (before ++ '-' :: month ++ '-' :: day) (.day y m d)) :
    Spells (before ++ '-' :: month) (.month y m) ∧ Spells before (.year y) := by
  generalize htext : before ++ '-' :: month ++ '-' :: day = text at h
  generalize hdate : WrittenDate.day y m d = date at h
  cases h with
  | @intro sign ys _ _ _ hs hy hrest =>
    cases hrest with
    | year => cases hdate
    | month => cases hdate
    | @day ms ds hm hd =>
      cases hdate
      -- Parts of equal length at the end of one text are the same.
      rw [← List.append_assoc] at htext
      obtain ⟨htext, -⟩ := List.append_inj' htext
        (by rw [List.length_cons, List.length_cons, hday, hd.length_eq])
      obtain ⟨rfl, hmonths⟩ := List.append_inj' htext
        (by rw [List.length_cons, List.length_cons, hmonth, hm.length_eq])
      rw [hmonths]
      refine ⟨.intro hs hy (.month hm), ?_⟩
      have hyear := Spells.intro hs hy .year
      rwa [List.append_nil] at hyear

/-- The text of a day holds the texts of its month and its year. -/
theorem ofString?_resolutions {year month day : String} {y : Int} {m d : Nat}
    (hmonth : month.length = 2) (hday : day.length = 2)
    (h : ofString? (year ++ "-" ++ month ++ "-" ++ day) = some (.day y m d)) :
    ofString? (year ++ "-" ++ month) = some (.month y m) ∧ ofString? year = some (.year y) := by
  rw [ofString?_eq_some_iff, toList_append_dash, toList_append_dash] at h
  rw [ofString?_eq_some_iff, ofString?_eq_some_iff, toList_append_dash]
  exact h.resolutions hmonth hday

end WrittenDate

/-! ## Days -/

def Date.parts (d : Date) : Int × Nat × Nat := (d.year, d.month, d.day)

namespace Instant

theorem firstOfMonth_sub_one (y : Int) {m : Nat} (hm : 1 ≤ m ∧ m ≤ 12) :
    firstOfMonth y (m - 1) = yearStart y + daysBeforeMonth y m := by
  have hdiv : ((m : Int) - 1) / 12 = 0 := by omega
  have hmod : (((m : Int) - 1) % 12).toNat + 1 = m := by omega
  rw [firstOfMonth, hdiv, hmod, Int.add_zero]

theorem date_of_ofCivil? {y m k : Int} {t : Instant} {d : Date} (h : ofCivil? y m k = some t)
    (hd : firstOfMonth y m + (k - 1) = d.dayNumber) : t.date = d := by
  rw [date, (isMidnight_of_ofCivil? h).dayNumber_eq, hd, Date.ofDayNumber_dayNumber]

/-- A day of the calendar starts on itself. -/
theorem parts_of_ofCivil? {y : Int} {m d : Nat} (hm : 1 ≤ m ∧ m ≤ 12)
    (hd : 1 ≤ d ∧ d ≤ monthLength y m) {t : Instant} (h : ofCivil? y (m - 1) d = some t) :
    t.date.parts = (y, m, d) := by
  have hdate : t.date = ⟨y, m, d, hm, hd⟩ := by
    refine date_of_ofCivil? h ?_
    rw [firstOfMonth_sub_one _ hm, Date.dayNumber]
    dsimp only
    omega
  rw [hdate, Date.parts]

/-- Month 12, counted from 0, is January of the next year. -/
theorem ofCivil?_next_january (y : Int) : ofCivil? y 12 1 = ofCivil? (y + 1) 0 1 :=
  ofCivil?_add_years y 0 1 1

end Instant

namespace WrittenDate

/-- The parts of a date are in the calendar. -/
def InCalendar : WrittenDate → Prop
  | year _ => True
  | month _ m => 1 ≤ m ∧ m ≤ 12
  | day y m d => (1 ≤ m ∧ m ≤ 12) ∧ 1 ≤ d ∧ d ≤ monthLength y m

/-- The day that a date starts on. -/
def first : WrittenDate → Int × Nat × Nat
  | year y => (y, 1, 1)
  | month y m => (y, m, 1)
  | day y m d => (y, m, d)

/-- The day that a date finishes with: the one after a year or a month, or the day itself. -/
def past : WrittenDate → Int × Nat × Nat
  | year y => (y + 1, 1, 1)
  | month y m => if m = 12 then (y + 1, 1, 1) else (y, m + 1, 1)
  | day y m d => (y, m, d)

theorem parts_of_start? {d : WrittenDate} (hd : d.InCalendar) {t : Instant}
    (h : d.start? = some t) : t.date.parts = d.first := by
  cases d with
  | year y => exact Instant.parts_of_ofCivil? (by decide) ⟨Nat.le_refl 1, monthLength_pos y 1⟩ h
  | month y m => exact Instant.parts_of_ofCivil? hd ⟨Nat.le_refl 1, monthLength_pos y m⟩ h
  | day y m d => exact Instant.parts_of_ofCivil? hd.1 hd.2 h

theorem parts_of_finish? {d : WrittenDate} (hd : d.InCalendar) {t : Instant}
    (h : d.finish? = some t) : t.date.parts = d.past := by
  have hjanuary : ∀ y : Int, Instant.ofCivil? (y + 1) 0 1 = some t →
      t.date.parts = (y + 1, 1, 1) := fun y =>
    Instant.parts_of_ofCivil? (by decide) ⟨Nat.le_refl 1, monthLength_pos (y + 1) 1⟩
  cases d with
  | year y => exact hjanuary y h
  | month y m =>
    by_cases hdecember : m = 12
    · subst hdecember
      exact hjanuary y (Instant.ofCivil?_next_january y ▸ h)
    · have hnext : ((m + 1 : Nat) : Int) - 1 = m := by omega
      have hm : 1 ≤ m ∧ m ≤ 12 := hd
      rw [past, if_neg hdecember]
      refine Instant.parts_of_ofCivil? (by omega) ⟨Nat.le_refl 1, monthLength_pos y (m + 1)⟩ ?_
      rw [hnext]
      exact h
  | day y m d => exact Instant.parts_of_ofCivil? hd.1 hd.2 h

end WrittenDate

end Chronomap
