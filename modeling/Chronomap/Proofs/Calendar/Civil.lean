import Chronomap.Calendar.Civil
import Chronomap.Proofs.Calendar.Resolutions

/-!
# Civil arithmetic

A year, a month and a day stand for the day that is counted on from the first of the month, and the
month is counted on from January.  Their midnight is found unless one of the two days is out of reach:

    ofCivil? y m d = none ↔
      ¬ Reached (Date.firstOf y m).dayNumber ∨ ¬ Reached (civilDay y m d)
                                                        (Instant.ofCivil?_eq_none_iff)

For words of 32 bits no step on the way overflows (`Instant.ofCivil32?_eq`).  Months count in twelves
as years do, and the parts of a midnight that was found lead back to it
(`Instant.civil_arithmetic`).  Since the first of the month has to be in reach too, a day can be in
reach and yet not be found (`Instant.ofCivil32?_eq_none_iff_of_reached`).
-/

namespace Chronomap

/-! ## Days in reach -/

/-- Instants reach a day: it is neither before −262143-01-01 nor after 262142-12-31. -/
def Reached (n : Int) : Prop := firstDay ≤ n ∧ n ≤ lastDay

instance (n : Int) : Decidable (Reached n) :=
  inferInstanceAs (Decidable (firstDay ≤ n ∧ n ≤ lastDay))

namespace Date

theorem lt_firstDay_iff {d : Date} : d.dayNumber < firstDay ↔ d.year < -262143 := by
  have hlow := yearStart_yearOfDay_le d.dayNumber
  have hhigh := lt_yearStart_yearOfDay d.dayNumber
  rw [yearOfDay_dayNumber] at hlow hhigh
  unfold firstDay
  constructor
  · intro hday
    refine Int.not_le.1 fun hyear => ?_
    have := yearStart_le_yearStart hyear
    omega
  · intro hyear
    have := @yearStart_le_yearStart (d.year + 1) (-262143) (by omega)
    omega

theorem lastDay_lt_iff {d : Date} : lastDay < d.dayNumber ↔ 262142 < d.year := by
  have hlow := yearStart_yearOfDay_le d.dayNumber
  have hhigh := lt_yearStart_yearOfDay d.dayNumber
  rw [yearOfDay_dayNumber] at hlow hhigh
  unfold lastDay
  constructor
  · intro hday
    refine Int.not_le.1 fun hyear => ?_
    have := @yearStart_le_yearStart (d.year + 1) 262143 (by omega)
    omega
  · intro hyear
    have := @yearStart_le_yearStart 262143 d.year (by omega)
    omega

/-- The days in reach are those of the years in reach. -/
theorem reached_iff {d : Date} : Reached d.dayNumber ↔ -262143 ≤ d.year ∧ d.year ≤ 262142 := by
  have hlow := @lt_firstDay_iff d
  have hhigh := @lastDay_lt_iff d
  unfold Reached
  omega

end Date

theorem reached_firstOf_iff {y m : Int} :
    Reached (Date.firstOf y m).dayNumber ↔ -262143 ≤ y + m / 12 ∧ y + m / 12 ≤ 262142 :=
  Date.reached_iff

namespace Instant

theorem isSome_midnight?_iff (n : Int) : (midnight? n).isSome ↔ Reached n :=
  midnight?_isSome_iff n

theorem reached_dayNumber (t : Instant) : Reached t.dayNumber := t.inRange

theorem IsMidnight.unique {s t : Instant} {n : Int} (hs : s.IsMidnight n) (ht : t.IsMidnight n) :
    s = t := by
  obtain ⟨secs, nanos, _, _⟩ := s
  obtain ⟨secs', nanos', _, _⟩ := t
  obtain ⟨rfl, rfl⟩ := hs
  obtain ⟨rfl, rfl⟩ := ht
  rfl

/-! ## Civil days -/

/-- The first of the month and the day have to be in reach, and that is enough. -/
theorem isSome_ofCivil?_iff {y m d : Int} :
    (ofCivil? y m d).isSome ↔
      Reached (Date.firstOf y m).dayNumber ∧ Reached (civilDay y m d) := by
  rw [ofCivil?_eq, ← isSome_midnight?_iff, ← isSome_midnight?_iff]
  cases midnight? (Date.firstOf y m).dayNumber with
  | none => simp
  | some first => simp

theorem ofCivil?_eq_none_iff {y m d : Int} :
    ofCivil? y m d = none ↔
      ¬ Reached (Date.firstOf y m).dayNumber ∨ ¬ Reached (civilDay y m d) := by
  rw [← Option.not_isSome_iff_eq_none, isSome_ofCivil?_iff, Classical.not_and_iff_not_or_not]

/-- The parts of a day of the calendar lead to that day. -/
theorem civilDay_date (d : Date) : civilDay d.year (d.month - 1) d.day = d.dayNumber := by
  rw [civilDay, Date.dayNumber_firstOf, firstOfMonth_sub_one _ d.month_mem, Date.dayNumber]
  omega

/-- A midnight is found from the parts of its date. -/
theorem ofCivil?_date {t : Instant} (h : t.IsMidnight t.dayNumber) :
    ofCivil? t.date.year (t.date.month - 1) t.date.day = some t := by
  have hday : civilDay t.date.year (t.date.month - 1) t.date.day = t.dayNumber := by
    rw [civilDay_date, dayNumber_date]
  have hyear := t.reached_dayNumber
  rw [← dayNumber_date, Date.reached_iff] at hyear
  have hmonth := t.date.month_mem
  have hfound := isSome_ofCivil?_iff.2 ⟨reached_firstOf_iff.2 (by omega), hday ▸ t.reached_dayNumber⟩
  obtain ⟨u, hu⟩ := Option.isSome_iff_exists.1 hfound
  have hmidnight := isMidnight_civilDay hu
  rw [hday] at hmidnight
  rw [hu, hmidnight.unique h]

/-! ## Words -/

end Instant

namespace Civil

/-- Each word on the way from a year, a month and a day to their midnight has the value that the
same step has for unbounded integers. -/
structure StepsExact (y m d : Int32) : Prop where
  carriedYears : (Civil.carriedYears m).toInt = m.toInt / 12
  year : ∀ c, add? y (Civil.carriedYears m) = some c ↔ c.toInt = y.toInt + m.toInt / 12
  monthIndex : (Civil.monthIndex m).toInt = m.toInt % 12
  month : ∃ i, unsigned? (Civil.monthIndex m) = some i ∧ (i + 1).toNat = (m.toInt % 12).toNat + 1
  offset : (Civil.offset d).toInt = d.toInt - 1
  distance : (Civil.distance (Civil.offset d)).toNat = (d.toInt - 1).natAbs

theorem stepsExact (y m d : Int32) : StepsExact y m d where
  carriedYears := toInt_carriedYears m
  year c := by rw [add?_eq_some_iff, toInt_carriedYears]
  monthIndex := toInt_monthIndex m
  month := unsigned?_monthIndex m
  offset := toInt_offset d
  distance := toNat_distance_offset d

/-- The years in reach fit in a word. -/
theorem fitsWord_of_reached {y m : Int} (h : Reached (Date.firstOf y m).dayNumber) :
    FitsWord (y + m / 12) := by
  rw [reached_firstOf_iff] at h
  unfold FitsWord
  omega

theorem exists_word {n : Int} (h : FitsWord n) : ∃ a : Int32, a.toInt = n :=
  ⟨Int32.ofInt n, Int32.toInt_ofInt_of_le h.1 h.2⟩

end Civil

namespace Instant

/-- The midnight of words is that of the integers they stand for. -/
theorem ofCivil32?_eq (y m d : Int32) :
    ofCivil32? y m d = ofCivil? y.toInt m.toInt d.toInt := by
  obtain ⟨hcarried, hyear, -, ⟨i, hi, hmonth⟩, -, -⟩ := Civil.stepsExact y m d
  rw [ofCivil32?]
  cases hsum : Civil.add? y (Civil.carriedYears m) with
  | none =>
    rw [Civil.add?_eq_none_iff, hcarried] at hsum
    have hfar := mt (@Civil.fitsWord_of_reached y.toInt m.toInt) hsum
    exact (ofCivil?_eq_none_iff.2 (.inl hfar)).symm
  | some c =>
    have hc := (hyear c).1 hsum
    have hfirst : firstOf? c (i + 1) = midnight? (firstOfMonth y.toInt m.toInt) := by
      rw [firstOf?, hc, hmonth, firstOfMonth]
    rw [Option.bind_some, hi, Option.bind_some, hfirst, ofCivil?]
    cases hreached : midnight? (firstOfMonth y.toInt m.toInt) with
    | none => rfl
    | some first =>
      rw [Option.bind_some, Option.bind_some, moved?_offset,
        (isMidnight_of_midnight? hreached).dayNumber_eq]

theorem isMidnight_ofCivil32? {y m d : Int32} {t : Instant} (h : ofCivil32? y m d = some t) :
    t.IsMidnight (civilDay y.toInt m.toInt d.toInt) :=
  isMidnight_civilDay (ofCivil32?_eq y m d ▸ h)

/-- A year that is too large for a word is out of reach. -/
theorem ofCivil32?_eq_none_iff {y m d : Int32} :
    ofCivil32? y m d = none ↔
      ¬ Civil.FitsWord (y.toInt + m.toInt / 12) ∨
        ¬ Reached (Date.firstOf y.toInt m.toInt).dayNumber ∨
        ¬ Reached (civilDay y.toInt m.toInt d.toInt) := by
  have hyear := @Civil.fitsWord_of_reached y.toInt m.toInt
  rw [ofCivil32?_eq, ofCivil?_eq_none_iff]
  constructor
  · exact .inr
  · rintro (hword | hday)
    · exact .inl (mt hyear hword)
    · exact hday

theorem ofCivil32?_add_years {y y' m m' d : Int32} {k : Int} (hm : m'.toInt = m.toInt + 12 * k)
    (hy : y'.toInt = y.toInt + k) : ofCivil32? y m' d = ofCivil32? y' m d := by
  rw [ofCivil32?_eq, ofCivil32?_eq, hm, hy, ofCivil?_add_years]

/-- The parts of a midnight fit in words and lead back to it. -/
theorem exists_ofCivil32?_date {t : Instant} (h : t.IsMidnight t.dayNumber) :
    ∃ y m d : Int32, y.toInt = t.date.year ∧ m.toInt = t.date.month - 1 ∧
      d.toInt = t.date.day ∧ ofCivil32? y m d = some t := by
  have hreached := t.reached_dayNumber
  rw [← dayNumber_date, Date.reached_iff] at hreached
  have hmonth := t.date.month_mem
  have hday := t.date.day_mem
  have hlength := monthLength_le t.date.year t.date.month
  obtain ⟨y, hy⟩ := Civil.exists_word (n := t.date.year) (by unfold Civil.FitsWord; omega)
  obtain ⟨m, hm⟩ := Civil.exists_word (n := t.date.month - 1) (by unfold Civil.FitsWord; omega)
  obtain ⟨d, hd⟩ := Civil.exists_word (n := t.date.day) (by unfold Civil.FitsWord; omega)
  refine ⟨y, m, d, hy, hm, hd, ?_⟩
  rw [ofCivil32?_eq, hy, hm, hd, ofCivil?_date h]

/-- The midnight of a year, a month and a day in words: no step overflows, the day is the one that
is counted on from the first of the month, nothing is found exactly if the year, the first of the
month or the day is out of reach, twelve months are a year, and a midnight is found from its own
parts. -/
theorem civil_arithmetic (y m d : Int32) :
    Civil.StepsExact y m d ∧
      ofCivil32? y m d = ofCivil? y.toInt m.toInt d.toInt ∧
      (∀ t, ofCivil32? y m d = some t → t.IsMidnight (civilDay y.toInt m.toInt d.toInt)) ∧
      (ofCivil32? y m d = none ↔
        ¬ Civil.FitsWord (y.toInt + m.toInt / 12) ∨
          ¬ Reached (Date.firstOf y.toInt m.toInt).dayNumber ∨
          ¬ Reached (civilDay y.toInt m.toInt d.toInt)) ∧
      (∀ (k : Int) (y' m' : Int32), m'.toInt = m.toInt + 12 * k → y'.toInt = y.toInt + k →
        ofCivil32? y m' d = ofCivil32? y' m d) ∧
      ∀ t, ofCivil32? y m d = some t → ∃ y' m' d' : Int32,
        y'.toInt = t.date.year ∧ m'.toInt = t.date.month - 1 ∧ d'.toInt = t.date.day ∧
          ofCivil32? y' m' d' = some t := by
  refine ⟨Civil.stepsExact y m d, ofCivil32?_eq y m d, fun t => isMidnight_ofCivil32?,
    ofCivil32?_eq_none_iff, fun k y' m' => ofCivil32?_add_years, fun t ht => ?_⟩
  have hmidnight := isMidnight_ofCivil32? ht
  exact exists_ofCivil32?_date (hmidnight.dayNumber_eq ▸ hmidnight)

/-- The day before the first of a month that is 133 months before a January out of reach. -/
theorem civil_arithmetic_zerothDay :
    ∃ t, ofCivil32? 262154 (-133) 0 = some t ∧ t.IsMidnight (civilDay 262154 (-133) 0) ∧
      ofCivil32? 262142 11 0 = some t ∧ t.date.parts = (262142, 11, 30) ∧
      ∃ y m d : Int32, (y.toInt, m.toInt, d.toInt) = (262142, 10, 30) ∧
        ofCivil32? y m d = some t := by
  obtain ⟨t, ht⟩ := Option.isSome_iff_exists.1
    (show (ofCivil32? 262154 (-133) 0).isSome = true by decide)
  obtain ⟨-, -, hday, -, -, hback⟩ := civil_arithmetic 262154 (-133) 0
  obtain ⟨-, -, -, -, hyears, -⟩ := civil_arithmetic 262142 (-133) 0
  have hmidnight := hday t ht
  have hparts : t.date.parts = (262142, 11, 30) := by
    rw [date, hmidnight.dayNumber_eq]
    decide
  obtain ⟨y, m, d, hy, hm, hd, hfound⟩ := hback t ht
  obtain ⟨hyear, hmonth, hdate⟩ : t.date.year = 262142 ∧ t.date.month = 11 ∧ t.date.day = 30 := by
    simpa [Date.parts] using hparts
  refine ⟨t, ht, hmidnight, ?_, hparts, y, m, d, ?_, hfound⟩
  · rw [← ht]
    exact hyears 12 262154 11 (by decide) (by decide)
  · rw [hy, hm, hd, hyear, hmonth, hdate]
    rfl

/-! ## Days that are not found -/

/-- A day in reach is not found exactly if the first of its month is in a year after the last one
in reach and the day is counted back, or in a year before the first one and the day is counted on. -/
theorem ofCivil32?_eq_none_iff_of_reached {y m d : Int32}
    (h : Reached (civilDay y.toInt m.toInt d.toInt)) :
    ofCivil32? y m d = none ↔
      262142 < y.toInt + m.toInt / 12 ∧ d.toInt < 1 ∨
        y.toInt + m.toInt / 12 < -262143 ∧ 1 < d.toInt := by
  have hbefore := @Date.lt_firstDay_iff (Date.firstOf y.toInt m.toInt)
  have hafter := @Date.lastDay_lt_iff (Date.firstOf y.toInt m.toInt)
  have hyear : (Date.firstOf y.toInt m.toInt).year = y.toInt + m.toInt / 12 := rfl
  rw [hyear] at hbefore hafter
  rw [ofCivil32?_eq, ofCivil?_eq_none_iff, or_iff_left (not_not_intro h), reached_firstOf_iff]
  obtain ⟨hfirst, hlast⟩ := h
  unfold civilDay at hfirst hlast
  omega

/-- The 32nd of the December before the first year in reach is the first day in reach. -/
theorem ofCivil32?_eq_none_iff_of_reached_firstDay :
    civilDay (-262144) 11 32 = firstDay ∧ ofCivil32? (-262144) 11 32 = none :=
  ⟨by decide, (ofCivil32?_eq_none_iff_of_reached (by decide)).2 (by decide)⟩

/-- A day in reach need not be found: the day before the first January out of reach is not. -/
theorem ofCivil32?_zerothJanuary_eq_none :
    (Date.ofDayNumber (civilDay 262143 0 0)).parts = (262142, 12, 31) ∧
      ofCivil32? 262143 0 0 = none ∧
      ¬ ∀ y m d : Int32, Reached (civilDay y.toInt m.toInt d.toInt) →
        (ofCivil32? y m d).isSome := by
  have hnone : ofCivil32? 262143 0 0 = none := by decide
  refine ⟨by decide, hnone, fun h => ?_⟩
  have hfound := h 262143 0 0 (by decide)
  rw [hnone] at hfound
  cases hfound

end Instant

end Chronomap
