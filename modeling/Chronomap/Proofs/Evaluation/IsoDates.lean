import Chronomap.Proofs.Calendar.TextRank
import Chronomap.Proofs.Evaluation.Order

/-!
# How ISO dates are sorted

Filters compare ISO dates as texts.  The years above 9999 come first, then the negative years and
then the years 0 to 9999 (`Date.SortsBefore`).  The first and the last of these are in the order of
the calendar.  The negative years are in the reverse order, but the days of one year are not.

    Comparison.lt.holds (.str a.isoDate) (.str b.isoDate) = true ↔
      a.date.SortsBefore b.date                                   (Instant.holds_isoDate_iff)

Two dates are equal as texts if they are one day, so the other comparisons follow from this one.
-/

namespace Chronomap

namespace Date

/-- A date comes before another one as text. -/
inductive SortsBefore (d e : Date) : Prop
  /-- A year above 9999 comes before a negative year and before the years 0 to 9999. -/
  | beyond (hd : 9999 < d.year) (he : e.year ≤ 9999)
  /-- A negative year comes before the years 0 to 9999. -/
  | negative (hd : d.year < 0) (he : e.FourDigitYear)
  /-- Above 9999 the order is that of the calendar. -/
  | bothBeyond (hd : 9999 < d.year) (he : 9999 < e.year) (h : d.dayNumber < e.dayNumber)
  /-- From 0 to 9999 the order is that of the calendar. -/
  | bothFourDigit (hd : d.FourDigitYear) (he : e.FourDigitYear) (h : d.dayNumber < e.dayNumber)
  /-- Of two negative years the one nearer to year 0 comes first. -/
  | bothNegative (hd : d.year < 0) (he : e.year < 0) (h : d.year.natAbs < e.year.natAbs)
  /-- Within a negative year the order is by month and day. -/
  | sameNegative (hd : d.year < 0) (hyear : d.year = e.year)
      (h : d.month < e.month ∨ d.month = e.month ∧ d.day < e.day)

/-- Each year is in one of three groups. -/
theorem year_cases (d : Date) : 9999 < d.year ∨ d.year < 0 ∨ d.FourDigitYear := by
  unfold FourDigitYear
  omega

/-- The order of the three groups, and the order within each of them, are those of the ranks. -/
theorem sortsBefore_iff {d e : Date} (hd : d.year.natAbs < 1000000)
    (he : e.year.natAbs < 1000000) :
    d.SortsBefore e ↔ textRank d.year < textRank e.year ∨ d.year = e.year ∧
      (d.month < e.month ∨ d.month = e.month ∧ d.day < e.day) := by
  constructor
  · intro h
    cases h with
    | beyond hd' he' =>
      rw [textRank_beyond hd', textRank]
      split <;> omega
    | negative hd' he' =>
      have hnonneg := he'.1
      rw [textRank_negative hd', he'.textRank_eq]
      omega
    | bothBeyond hd' he' h =>
      rw [dayNumber_lt_iff] at h
      rw [textRank_beyond hd', textRank_beyond he']
      omega
    | bothFourDigit hd' he' h =>
      rw [dayNumber_lt_iff] at h
      rwa [hd'.textRank_eq, he'.textRank_eq]
    | bothNegative hd' he' h =>
      rw [textRank_negative hd', textRank_negative he']
      omega
    | sameNegative hd' hyear h => exact .inr ⟨hyear, h⟩
  · intro h
    -- The kinds of years follow each other: beyond 9999, negative, four digits.
    rcases d.year_cases with hd' | hd' | hd'
    · by_cases he' : 9999 < e.year
      · rw [textRank_beyond hd', textRank_beyond he', Int.sub_lt_sub_right_iff,
          ← dayNumber_lt_iff] at h
        exact .bothBeyond hd' he' h
      · exact .beyond hd' (Int.not_lt.1 he')
    · rcases e.year_cases with he' | he' | he'
      · rw [textRank_negative hd', textRank_beyond he'] at h
        omega
      · rw [textRank_negative hd', textRank_negative he'] at h
        rcases h with hrank | ⟨hyear, hparts⟩
        · exact .bothNegative hd' he' (by omega)
        · exact .sameNegative hd' hyear hparts
      · exact .negative hd' he'
    · have hbounds : 0 ≤ d.year ∧ d.year ≤ 9999 := hd'
      rcases e.year_cases with he' | he' | he'
      · rw [hd'.textRank_eq, textRank_beyond he'] at h
        omega
      · rw [hd'.textRank_eq, textRank_negative he'] at h
        omega
      · rw [hd'.textRank_eq, he'.textRank_eq, ← dayNumber_lt_iff] at h
        exact .bothFourDigit hd' he' h

end Date

namespace Instant

open Chronomap.Filter

theorem isoDate_lt_iff_sortsBefore {a b : Instant} :
    a.isoDate < b.isoDate ↔ a.date.SortsBefore b.date := by
  rw [Date.sortsBefore_iff a.natAbs_year_lt b.natAbs_year_lt, isoDate_lt_iff]

/-- All comparisons of two ISO dates: the texts of different days are different, and they are sorted
by the groups of their years. -/
theorem holds_isoDate_iff (a b : Instant) :
    (Comparison.eq.holds (.str a.isoDate) (.str b.isoDate) = true ↔
        a.dayNumber = b.dayNumber) ∧
      (Comparison.ne.holds (.str a.isoDate) (.str b.isoDate) = true ↔
        a.dayNumber ≠ b.dayNumber) ∧
      (Comparison.lt.holds (.str a.isoDate) (.str b.isoDate) = true ↔
        a.date.SortsBefore b.date) ∧
      (Comparison.gt.holds (.str a.isoDate) (.str b.isoDate) = true ↔
        b.date.SortsBefore a.date) ∧
      (Comparison.le.holds (.str a.isoDate) (.str b.isoDate) = true ↔
        ¬ b.date.SortsBefore a.date) ∧
      (Comparison.ge.holds (.str a.isoDate) (.str b.isoDate) = true ↔
        ¬ a.date.SortsBefore b.date) := by
  have hnlt : ∀ {s t : Instant}, s.isoDate ≤ t.isoDate ↔ ¬ t.date.SortsBefore s.date := by
    intro s t
    rw [← isoDate_lt_iff_sortsBefore, String.not_lt]
  refine ⟨?_, ?_, ?_, ?_, ?_, ?_⟩
  · exact (Comparison.holds_str_iff .eq).trans isoDate_eq_iff
  · exact (Comparison.holds_str_iff .ne).trans (not_congr isoDate_eq_iff)
  · exact (Comparison.holds_str_iff .lt).trans isoDate_lt_iff_sortsBefore
  · exact (Comparison.holds_str_iff .gt).trans isoDate_lt_iff_sortsBefore
  · exact (Comparison.holds_str_iff .le).trans hnlt
  · exact (Comparison.holds_str_iff .ge).trans hnlt

end Instant

end Chronomap
