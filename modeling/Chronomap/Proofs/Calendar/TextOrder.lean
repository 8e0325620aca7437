import Chronomap.Calendar.WrittenDate

/-!
# The text order of ISO dates

Texts are compared by their first differing character.  In a field of fixed width this is the order
of the numbers, and dates put their largest part first, so the texts of dates whose years have
equally many characters are ordered like the dates:

    d.dayNumber < e.dayNumber ↔
      d.year < e.year ∨ d.year = e.year ∧
        (d.month < e.month ∨ d.month = e.month ∧ d.day < e.day)       (Date.dayNumber_lt_iff)
    d.isoChars < e.isoChars ↔
      yearText d.year < yearText e.year ∨ yearText d.year = yearText e.year ∧
        (d.month < e.month ∨ d.month = e.month ∧ d.day < e.day),
      if both years have equally many characters              (Date.isoChars_lt_isoChars_iff)
-/

namespace Chronomap

/-! ## Digits -/

namespace Digits

/-- Texts that start with equally many characters are compared part by part. -/
theorem append_lt_append_iff {as bs xs ys : List Char} (h : as.length = bs.length) :
    as ++ xs < bs ++ ys ↔ as < bs ∨ as = bs ∧ xs < ys := by
  induction as generalizing bs with
  | nil =>
    obtain rfl := List.length_eq_zero_iff.1 h.symm
    simp
  | cons a as ih =>
    cases bs with
    | nil => cases h
    | cons b bs =>
      rw [List.cons_append, List.cons_append, List.cons_lt_cons_iff, List.cons_lt_cons_iff,
        ih (Nat.succ.inj h)]
      constructor
      · rintro (hab | ⟨rfl, hlt | ⟨rfl, hxy⟩⟩)
        · exact .inl (.inl hab)
        · exact .inl (.inr ⟨rfl, hlt⟩)
        · exact .inr ⟨rfl, hxy⟩
      · rintro ((hab | ⟨rfl, hlt⟩) | ⟨heq, hxy⟩)
        · exact .inl hab
        · exact .inr ⟨rfl, .inl hlt⟩
        · obtain ⟨rfl, rfl⟩ := List.cons.inj heq
          exact .inr ⟨rfl, .inr ⟨rfl, hxy⟩⟩

theorem digit_lt_digit_iff (m n : Nat) : digit m < digit n ↔ m % 10 < n % 10 := by
  have hm := toNat_digit m
  have hn := toNat_digit n
  show (digit m).toNat < (digit n).toNat ↔ _
  omega

theorem field_eq_field_iff {width m n : Nat} (hm : m < Nat.pow 10 width)
    (hn : n < Nat.pow 10 width) : field width m = field width n ↔ m = n := by
  constructor
  · intro h
    have hv := congrArg value h
    rwa [value_field, value_field, Nat.mod_eq_of_lt hm, Nat.mod_eq_of_lt hn] at hv
  · rintro rfl
    rfl

/-- Numbers of equal width are ordered like their digits. -/
theorem field_lt_field_iff {width m n : Nat} (hm : m < Nat.pow 10 width)
    (hn : n < Nat.pow 10 width) : field width m < field width n ↔ m < n := by
  induction width generalizing m n with
  | zero =>
    have h1 : Nat.pow 10 0 = 1 := rfl
    simp only [field, List.not_lt_nil, false_iff]
    omega
  | succ width ih =>
    have hpow : Nat.pow 10 (width + 1) = Nat.pow 10 width * 10 := rfl
    have hm' : m / 10 < Nat.pow 10 width := by omega
    have hn' : n / 10 < Nat.pow 10 width := by omega
    have hlast : [digit m] < [digit n] ↔ m % 10 < n % 10 := by
      rw [List.cons_lt_cons_iff, digit_lt_digit_iff]
      simp
    rw [field, field, append_lt_append_iff (by rw [length_field, length_field]), ih hm' hn',
      field_eq_field_iff hm' hn', hlast]
    omega

end Digits

/-! ## Calendar order -/

namespace Date

theorem dayNumber_lt_of_year_lt {d e : Date} (h : d.year < e.year) :
    d.dayNumber < e.dayNumber := by
  have hd := lt_yearStart_yearOfDay d.dayNumber
  have he := yearStart_yearOfDay_le e.dayNumber
  rw [yearOfDay_dayNumber] at hd he
  have hyears := @yearStart_le_yearStart (d.year + 1) e.year (by omega)
  omega

theorem dayNumber_lt_of_month_lt {d e : Date} (hy : d.year = e.year) (h : d.month < e.month) :
    d.dayNumber < e.dayNumber := by
  have hd := d.day_le_daysBeforeMonth_succ
  have he := e.day_mem
  have hmonths := daysBeforeMonth_mono d.year (show d.month + 1 ≤ e.month from h)
  unfold dayNumber
  rw [← hy]
  omega

theorem dayNumber_lt_of_day_lt {d e : Date} (hy : d.year = e.year) (hm : d.month = e.month)
    (h : d.day < e.day) : d.dayNumber < e.dayNumber := by
  unfold dayNumber
  rw [← hy, ← hm]
  omega

/-- Dates are ordered by their years, then by their months and then by their days. -/
theorem dayNumber_lt_iff {d e : Date} :
    d.dayNumber < e.dayNumber ↔
      d.year < e.year ∨ d.year = e.year ∧
        (d.month < e.month ∨ d.month = e.month ∧ d.day < e.day) := by
  have hlt : ∀ {d e : Date}, (d.year < e.year ∨ d.year = e.year ∧
      (d.month < e.month ∨ d.month = e.month ∧ d.day < e.day)) → d.dayNumber < e.dayNumber := by
    rintro d e (hy | ⟨hy, hm | ⟨hm, hd⟩⟩)
    · exact dayNumber_lt_of_year_lt hy
    · exact dayNumber_lt_of_month_lt hy hm
    · exact dayNumber_lt_of_day_lt hy hm hd
  constructor
  · intro h
    -- Otherwise the parts are the same, or they are in the reverse order.
    by_cases hsame : d.year = e.year ∧ d.month = e.month ∧ d.day = e.day
    · obtain ⟨hy, hm, hd⟩ := hsame
      unfold dayNumber at h
      rw [hy, hm, hd] at h
      omega
    · have hnot : ¬ (e.year < d.year ∨ e.year = d.year ∧
          (e.month < d.month ∨ e.month = d.month ∧ e.day < d.day)) := by
        intro hrev
        have := hlt hrev
        omega
      omega
  · exact hlt

/-! ## Dates as text -/

theorem month_lt_hundred (d : Date) : d.month < Nat.pow 10 2 :=
  Nat.lt_of_le_of_lt d.month_mem.2 (by decide)

theorem day_lt_hundred (d : Date) : d.day < Nat.pow 10 2 :=
  Nat.lt_of_le_of_lt (Nat.le_trans d.day_mem.2 (monthLength_le _ _)) (by decide)

/-- Dates whose years have equally many characters are compared part by part. -/
theorem isoChars_lt_isoChars_iff {d e : Date}
    (h : (yearText d.year).length = (yearText e.year).length) :
    d.isoChars < e.isoChars ↔
      yearText d.year < yearText e.year ∨ yearText d.year = yearText e.year ∧
        (d.month < e.month ∨ d.month = e.month ∧ d.day < e.day) := by
  have hlength : ('-' :: Digits.field 2 d.month).length =
      ('-' :: Digits.field 2 e.month).length := by
    rw [List.length_cons, List.length_cons, Digits.length_field, Digits.length_field]
  have hday : '-' :: Digits.field 2 d.day < '-' :: Digits.field 2 e.day ↔ d.day < e.day := by
    rw [List.cons_lt_cons_self, Digits.field_lt_field_iff d.day_lt_hundred e.day_lt_hundred]
  have hmonth : '-' :: Digits.field 2 d.month < '-' :: Digits.field 2 e.month ↔
      d.month < e.month := by
    rw [List.cons_lt_cons_self,
      Digits.field_lt_field_iff d.month_lt_hundred e.month_lt_hundred]
  have hmonths : '-' :: Digits.field 2 d.month = '-' :: Digits.field 2 e.month ↔
      d.month = e.month := by
    rw [List.cons_inj_right, Digits.field_eq_field_iff d.month_lt_hundred e.month_lt_hundred]
  rw [isoChars, isoChars, List.append_assoc, List.append_assoc,
    Digits.append_lt_append_iff h, Digits.append_lt_append_iff hlength, hmonth, hmonths, hday]

def FourDigitYear (d : Date) : Prop := 0 ≤ d.year ∧ d.year ≤ 9999

theorem FourDigitYear.yearText_eq {d : Date} (h : d.FourDigitYear) :
    yearText d.year = Digits.field 4 d.year.toNat := if_pos h

theorem FourDigitYear.toNat_lt {d : Date} (h : d.FourDigitYear) :
    d.year.toNat < Nat.pow 10 4 := by
  have h4 : Nat.pow 10 4 = 10000 := by decide
  have hle := h.2
  omega

end Date

namespace Instant

theorem dayNumber_date (t : Instant) : t.date.dayNumber = t.dayNumber :=
  Date.dayNumber_ofDayNumber t.dayNumber

end Instant

end Chronomap
