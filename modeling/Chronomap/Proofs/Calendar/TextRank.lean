import Chronomap.Proofs.Calendar.TextOrder

/-!
# The text order of the dates of all years

A year outside 0 to 9999 is written with a sign in front, and both signs come before every digit.
The texts of dates put the years above 9999 first and the negative years next, the earlier of two
negative years last; the years 0 to 9999 follow.  With `textRank` for this order of years,

    d.isoChars < e.isoChars ↔
      textRank d.year < textRank e.year ∨ d.year = e.year ∧
        (d.month < e.month ∨ d.month = e.month ∧ d.day < e.day)        (Date.isoChars_lt_iff)

for all years of at most six digits, which those of instants are.  So instants have the same text
exactly on the same day (`Instant.isoDate_eq_iff`), and within the years 0 to 9999 the order is that
of the days (`Instant.isoDate_lt_isoDate_iff`).
-/

namespace Chronomap

/-! ## Years -/

/-- Where a year of at most six digits stands in the text order. -/
def textRank (y : Int) : Int :=
  if y < 0 then -y - 1000000 else if y ≤ 9999 then y else y - 2000000

theorem textRank_beyond {y : Int} (h : 9999 < y) : textRank y = y - 2000000 := by
  rw [textRank, if_neg (by omega), if_neg (by omega)]

theorem textRank_negative {y : Int} (h : y < 0) : textRank y = -y - 1000000 := if_pos h

theorem Date.FourDigitYear.textRank_eq {d : Date} (h : d.FourDigitYear) :
    textRank d.year = d.year := by
  unfold FourDigitYear at h
  rw [textRank, if_neg (by omega), if_pos h.2]

theorem textRank_inj {y z : Int} (hy : y.natAbs < 1000000) (hz : z.natAbs < 1000000)
    (h : textRank y = textRank z) : y = z := by
  unfold textRank at h
  repeat' split at h
  all_goals omega

/-- Only among the years −1 to 9998 and right after them the next year comes later as text. -/
theorem textRank_succ_lt_iff {y : Int} (h : -9999 ≤ y ∧ y ≤ 9999) :
    textRank (y + 1) < textRank y ↔ y < -1 ∨ y = 9999 := by
  unfold textRank
  repeat' split
  all_goals omega

def SignedYear (y : Int) : Prop := ¬ (0 ≤ y ∧ y ≤ 9999)

def yearSign (y : Int) : Char := if y < 0 then '-' else '+'

theorem yearText_signed {y : Int} (h : SignedYear y) :
    yearText y = yearSign y :: Digits.field 6 y.natAbs := if_neg h

theorem yearText_unsigned {y : Int} (h : ¬ SignedYear y) :
    yearText y = Digits.field 4 y.toNat := if_pos (Decidable.of_not_not h)

/-- A sign comes before every digit. -/
theorem yearSign_lt_digit (y : Int) (n : Nat) : yearSign y < Digits.digit n := by
  have hn := Digits.toNat_digit n
  show (yearSign y).toNat < (Digits.digit n).toNat
  unfold yearSign
  split
  · show 45 < _
    omega
  · show 43 < _
    omega

theorem yearSign_lt_iff {y z : Int} : yearSign y < yearSign z ↔ 0 ≤ y ∧ z < 0 := by
  unfold yearSign
  split <;> split <;> simp <;> omega

theorem yearSign_eq_iff {y z : Int} : yearSign y = yearSign z ↔ (y < 0 ↔ z < 0) := by
  unfold yearSign
  split <;> split <;> simp <;> omega

/-- Years with equally many characters are compared as texts. -/
theorem yearText_lt_iff {y z : Int} (hy : y.natAbs < 1000000) (hz : z.natAbs < 1000000)
    (h : SignedYear y ↔ SignedYear z) : yearText y < yearText z ↔ textRank y < textRank z := by
  have h4 : Nat.pow 10 4 = 10000 := by decide
  have h6 : Nat.pow 10 6 = 1000000 := by decide
  by_cases hs : SignedYear y
  · have hs' := h.1 hs
    rw [yearText_signed hs, yearText_signed hs', List.cons_lt_cons_iff, yearSign_lt_iff,
      yearSign_eq_iff, Digits.field_lt_field_iff (by omega) (by omega)]
    unfold SignedYear at hs hs'
    unfold textRank
    repeat' split
    all_goals omega
  · have hs' := mt h.2 hs
    rw [yearText_unsigned hs, yearText_unsigned hs']
    unfold SignedYear at hs hs'
    rw [Digits.field_lt_field_iff (by omega) (by omega)]
    unfold textRank
    repeat' split
    all_goals omega

theorem yearText_eq_iff {y z : Int} (hy : y.natAbs < 1000000) (hz : z.natAbs < 1000000)
    (h : SignedYear y ↔ SignedYear z) : yearText y = yearText z ↔ y = z := by
  constructor
  · intro heq
    have hlt := yearText_lt_iff hy hz h
    have hgt := yearText_lt_iff hz hy h.symm
    rw [heq] at hlt hgt
    have hirrefl : ¬ yearText z < yearText z := List.lt_irrefl _
    have h1 := mt hlt.2 hirrefl
    have h2 := mt hgt.2 hirrefl
    exact textRank_inj hy hz (by omega)
  · rintro rfl
    rfl

theorem length_yearText {y z : Int} (h : SignedYear y ↔ SignedYear z) :
    (yearText y).length = (yearText z).length := by
  by_cases hs : SignedYear y
  · rw [yearText_signed hs, yearText_signed (h.1 hs), List.length_cons, List.length_cons,
      Digits.length_field, Digits.length_field]
  · rw [yearText_unsigned hs, yearText_unsigned (mt h.2 hs), Digits.length_field,
      Digits.length_field]

/-! ## Dates -/

namespace Date

/-- A date whose year has a sign comes before all whose years have none. -/
theorem isoChars_lt_of_signed {d e : Date} (hd : SignedYear d.year) (he : ¬ SignedYear e.year) :
    d.isoChars < e.isoChars := by
  rw [isoChars, isoChars, yearText_signed hd, yearText_unsigned he]
  exact List.cons_lt_cons_iff.2 (.inl (yearSign_lt_digit _ _))

/-- Dates as texts are ordered by the ranks of their years, then by months and then by days. -/
theorem isoChars_lt_iff {d e : Date} (hd : d.year.natAbs < 1000000)
    (he : e.year.natAbs < 1000000) :
    d.isoChars < e.isoChars ↔
      textRank d.year < textRank e.year ∨ d.year = e.year ∧
        (d.month < e.month ∨ d.month = e.month ∧ d.day < e.day) := by
  by_cases h : SignedYear d.year ↔ SignedYear e.year
  · rw [isoChars_lt_isoChars_iff (length_yearText h), yearText_lt_iff hd he h,
      yearText_eq_iff hd he h]
  · have hne : d.year ≠ e.year := fun heq => h (heq ▸ Iff.rfl)
    -- Only one of the years has a sign, which comes before every digit.
    by_cases hs : SignedYear d.year
    · have hs' : ¬ SignedYear e.year := fun hs' => h ⟨fun _ => hs', fun _ => hs⟩
      have hlt := isoChars_lt_of_signed hs hs'
      unfold SignedYear at hs hs'
      refine ⟨fun _ => .inl ?_, fun _ => hlt⟩
      unfold textRank
      repeat' split
      all_goals omega
    · have hs' : SignedYear e.year := by
        by_cases hs' : SignedYear e.year
        · exact hs'
        · exact absurd ⟨fun hd => absurd hd hs, fun he => absurd he hs'⟩ h
      have hgt := isoChars_lt_of_signed hs' hs
      unfold SignedYear at hs hs'
      refine ⟨fun hlt => absurd hgt (List.lt_asymm hlt), fun hrank => ?_⟩
      unfold textRank at hrank
      repeat' split at hrank
      all_goals omega

end Date

/-! ## Instants -/

namespace Instant

/-- The years of instants have at most six digits. -/
theorem natAbs_year_lt (t : Instant) : t.date.year.natAbs < 1000000 := by
  have hlow := yearStart_yearOfDay_le t.dayNumber
  have hhigh := lt_yearStart_yearOfDay t.dayNumber
  have hrange : firstDay ≤ t.dayNumber ∧ t.dayNumber ≤ lastDay := t.inRange
  have hyear : t.date.year = yearOfDay t.dayNumber := rfl
  rw [hyear]
  generalize yearOfDay t.dayNumber = y at *
  unfold firstDay lastDay at hrange
  rcases Int.lt_or_le y (-262143) with hneg | hlow'
  · have := @yearStart_le_yearStart (y + 1) (-262143) (by omega)
    omega
  · rcases Int.lt_or_le y 262143 with hhigh' | hpos
    · omega
    · have := @yearStart_le_yearStart 262143 y hpos
      omega

/-- Instants as ISO dates are ordered by the ranks of their years, then by months and then by
days. -/
theorem isoDate_lt_iff (s t : Instant) :
    s.isoDate < t.isoDate ↔
      textRank s.date.year < textRank t.date.year ∨ s.date.year = t.date.year ∧
        (s.date.month < t.date.month ∨ s.date.month = t.date.month ∧ s.date.day < t.date.day) := by
  rw [← Date.isoChars_lt_iff s.natAbs_year_lt t.natAbs_year_lt]
  show (String.ofList s.date.isoChars).toList < (String.ofList t.date.isoChars).toList ↔ _
  rw [String.toList_ofList, String.toList_ofList]

/-- Instants in years of four digits are ordered as text like their days. -/
theorem isoDate_lt_isoDate_iff {s t : Instant} (hs : s.date.FourDigitYear)
    (ht : t.date.FourDigitYear) : s.isoDate < t.isoDate ↔ s.dayNumber < t.dayNumber := by
  rw [isoDate_lt_iff, hs.textRank_eq, ht.textRank_eq, ← Date.dayNumber_lt_iff, dayNumber_date,
    dayNumber_date]

/-- Instants have one text if they are on one day, in whatever year that is. -/
theorem isoDate_eq_iff {a b : Instant} : a.isoDate = b.isoDate ↔ a.dayNumber = b.dayNumber := by
  constructor
  · intro h
    have hirrefl : ¬ b.isoDate < b.isoDate := String.lt_irrefl _
    have hab := isoDate_lt_iff a b
    have hba := isoDate_lt_iff b a
    rw [h] at hab hba
    have hnlt := mt hab.2 hirrefl
    have hngt := mt hba.2 hirrefl
    have hyear : a.date.year = b.date.year :=
      textRank_inj a.natAbs_year_lt b.natAbs_year_lt (by omega)
    have hmonth : a.date.month = b.date.month := by omega
    have hday : a.date.day = b.date.day := by omega
    rw [← dayNumber_date, ← dayNumber_date, Date.dayNumber, Date.dayNumber, hyear, hmonth, hday]
  · intro h
    rw [isoDate, isoDate, date, date, h]

end Instant

end Chronomap
