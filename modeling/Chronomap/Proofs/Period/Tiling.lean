import Chronomap.Proofs.Period.Rollover

/-!
# Days tile months, and months tile years

The period of a year and those of its months go from midnight to midnight, so that what they contain
is a matter of days:

    p.SpansDays m n → (p.Contains t ↔ m ≤ t.dayNumber ∧ t.dayNumber < n)     (Period.contains_iff)

A month finishes with the first day of the next one, which is as many days later as the month has in
the calendar (`Date.dayNumber_firstOf_succ`).  Hence the months of a year lie one after the other
from its start to its finish, and the days in a month are those that the calendar has in it
(`Period.months_tile_year`).
-/

namespace Chronomap

namespace Instant

/-- A midnight is not after an instant if its day is not after that of the instant. -/
theorem IsMidnight.le_iff {s t : Instant} {n : Int} (h : s.IsMidnight n) :
    s ≤ t ↔ n ≤ t.dayNumber := by
  obtain ⟨hsecs, hnanos⟩ := h
  rw [Instant.le_iff, hsecs, hnanos, dayNumber]
  omega

theorem isMidnight_firstOf {y m : Int} {t : Instant} (h : ofCivil? y m 1 = some t) :
    t.IsMidnight (Date.firstOf y m).dayNumber := by
  have hmidnight := isMidnight_civilDay h
  rwa [civilDay_one] at hmidnight

/-- Instants reach every day between two of theirs. -/
theorem exists_isMidnight_of_between {s t : Instant} {n : Int} (hs : s.dayNumber ≤ n)
    (ht : n ≤ t.dayNumber) : ∃ u : Instant, u.IsMidnight n := by
  have hlow := s.inRange.1
  have hhigh := t.inRange.2
  unfold dayNumber at hs ht
  obtain ⟨u, hu⟩ := Option.isSome_iff_exists.1 ((midnight?_isSome_iff n).2 (by omega))
  exact ⟨u, isMidnight_of_midnight? hu⟩

end Instant

namespace Period

/-! ## Periods in days -/

/-- An instant is in a period: not before its start, and before its finish. -/
def Contains (p : Period) (t : Instant) : Prop :=
  ∃ start finish, p.start.instant = some start ∧ p.finish.instant = some finish ∧
    start ≤ t ∧ ¬ finish ≤ t

/-- All the instants of a period are in another one. -/
def Within (p q : Period) : Prop := ∀ t, p.Contains t → q.Contains t

/-- A period goes from the midnight that day `m` starts with to the one that day `n` starts with. -/
structure SpansDays (p : Period) (m n : Int) : Prop where
  start : ∃ t, p.start.instant = some t ∧ t.IsMidnight m
  finish : ∃ t, p.finish.instant = some t ∧ t.IsMidnight n

theorem contains_iff {p : Period} {m n : Int} (h : p.SpansDays m n) (t : Instant) :
    p.Contains t ↔ m ≤ t.dayNumber ∧ t.dayNumber < n := by
  obtain ⟨⟨start, hstart, hm⟩, ⟨finish, hfinish, hn⟩⟩ := h
  constructor
  · rintro ⟨s, f, hs, hf, hle, hnle⟩
    obtain rfl := Option.some.inj (hstart.symm.trans hs)
    obtain rfl := Option.some.inj (hfinish.symm.trans hf)
    rw [hm.le_iff] at hle
    rw [hn.le_iff] at hnle
    omega
  · intro hdays
    refine ⟨start, finish, hstart, hfinish, hm.le_iff.2 hdays.1, ?_⟩
    rw [hn.le_iff]
    omega

/-- A period with days in it is within another one if it neither starts before it nor finishes
after it. -/
theorem within_iff {p q : Period} {a b c d : Int} (hp : p.SpansDays a b) (hq : q.SpansDays c d)
    (h : a < b) : p.Within q ↔ c ≤ a ∧ b ≤ d := by
  simp only [Within, contains_iff hp, contains_iff hq]
  constructor
  · intro hall
    -- The first and the last day of `p` are in `q`.
    obtain ⟨⟨start, -, ha⟩, ⟨finish, -, hb⟩⟩ := hp
    have hfirst := hall start
    rw [ha.dayNumber_eq] at hfirst
    obtain ⟨last, hlast⟩ := Instant.exists_isMidnight_of_between (n := b - 1)
      (by rw [ha.dayNumber_eq]; omega) (by rw [hb.dayNumber_eq]; omega)
    have hlast' := hall last
    rw [hlast.dayNumber_eq] at hlast'
    omega
  · intro hends t ht
    omega

/-! ## Years and months -/

section

variable (numbering : Numbering) {y : Int} (hy : -9999 ≤ y ∧ y ≤ 9999)

include hy

theorem spansDays_year : (ofWrittenDate numbering (.year y)).SpansDays
    (Date.firstOf y 0).dayNumber (Date.firstOf y 12).dayNumber := by
  have hbounded : (WrittenDate.year y).Bounded := hy
  obtain ⟨start, hstart⟩ := Option.isSome_iff_exists.1 (WrittenDate.isSome_start? hbounded)
  obtain ⟨finish, hfinish⟩ := Option.isSome_iff_exists.1 (WrittenDate.isSome_finish? hbounded)
  refine ⟨⟨start, hstart, Instant.isMidnight_firstOf hstart⟩,
    ⟨finish, hfinish, Instant.isMidnight_firstOf ?_⟩⟩
  rw [Instant.ofCivil?_next_january]
  exact hfinish

theorem spansDays_month {m : Nat} (hm : m < 100) :
    (ofWrittenDate numbering (.month y m)).SpansDays
      (Date.firstOf y (m - 1)).dayNumber (Date.firstOf y m).dayNumber := by
  have hbounded : (WrittenDate.month y m).Bounded := ⟨hy, Nat.le_of_lt_succ hm⟩
  obtain ⟨start, hstart⟩ := Option.isSome_iff_exists.1 (WrittenDate.isSome_start? hbounded)
  obtain ⟨finish, hfinish⟩ := Option.isSome_iff_exists.1 (WrittenDate.isSome_finish? hbounded)
  exact ⟨⟨start, hstart, Instant.isMidnight_firstOf hstart⟩,
    ⟨finish, hfinish, Instant.isMidnight_firstOf hfinish⟩⟩

/-- The months within a year are those of the calendar. -/
theorem month_within_year_iff {m : Nat} (hm : m < 100) :
    (ofWrittenDate numbering (.month y m)).Within (ofWrittenDate numbering (.year y)) ↔
      1 ≤ m ∧ m ≤ 12 := by
  have hnonempty : (Date.firstOf y (m - 1)).dayNumber < (Date.firstOf y m).dayNumber :=
    Date.dayNumber_firstOf_lt_iff.2 (by omega)
  rw [within_iff (spansDays_month numbering hy hm) (spansDays_year numbering hy) hnonempty,
    ← Int.not_lt, ← Int.not_lt, Date.dayNumber_firstOf_lt_iff, Date.dayNumber_firstOf_lt_iff]
  omega

/-- The days within a month are those that the calendar has in it. -/
theorem month_contains_day_iff {m d : Nat} (hm : m < 100) {t : Instant}
    (h : (WrittenDate.day y m d).start? = some t) :
    (ofWrittenDate numbering (.month y m)).Contains t ↔
      1 ≤ d ∧ d ≤ (Date.firstOf y (m - 1)).lengthOfMonth := by
  have hday : t.dayNumber = (Date.firstOf y (m - 1)).dayNumber + (d - 1) := by
    rw [← Instant.dayNumber_date]
    exact Instant.dayNumber_of_ofCivil? h
  have hnext := Date.dayNumber_firstOf_succ y (m - 1)
  rw [Int.sub_add_cancel] at hnext
  rw [contains_iff (spansDays_month numbering hy hm), hday, hnext]
  omega

end

theorem finish_month (numbering : Numbering) (y : Int) (m : Nat) :
    (ofWrittenDate numbering (.month y m)).finish =
      (ofWrittenDate numbering (.month y (m + 1))).start := by
  have hnext : ((m + 1 : Nat) : Int) - 1 = m := by omega
  simp only [ofWrittenDate, ofInstants?, WrittenDate.start?, WrittenDate.finish?, hnext]

theorem finish_year (numbering : Numbering) (y : Int) :
    (ofWrittenDate numbering (.year y)).finish =
      (ofWrittenDate numbering (.month y 12)).finish := by
  have hjanuary := Instant.ofCivil?_next_january y
  simp only [ofWrittenDate, ofInstants?, WrittenDate.finish?]
  rw [← hjanuary]
  rfl

theorem ofIsoDate?_of_spells (numbering : Numbering) {text : String} {d : WrittenDate}
    (h : WrittenDate.Spells text.toList d) :
    ofIsoDate? numbering text = some (ofWrittenDate numbering d) := by
  rw [ofIsoDate?, WrittenDate.ofString?_eq_some_iff.2 h, Option.map_some]

/-- The months of a year follow each other from its start to its finish, no other month is within
it, and a day is within a month exactly if the calendar has it there. -/
theorem months_tile_year (numbering : Numbering) {year : String} {y : Int}
    (hy : WrittenDate.Spells year.toList (.year y)) :
    ∃ (whole : Period) (month : Nat → Period),
      ofIsoDate? numbering year = some whole ∧
      (∀ m < 100, ofIsoDate? numbering (WrittenDate.monthText year m) = some (month m)) ∧
      (∀ m, 1 ≤ m → m < 12 → (month m).finish = (month (m + 1)).start) ∧
      whole.start = (month 1).start ∧
      whole.finish = (month 12).finish ∧
      (∀ m < 100, (month m).Within whole ↔ 1 ≤ m ∧ m ≤ 12) ∧
      ∀ m < 100, ∀ d < 100, ∃ t, Instant.ofIsoDate? (WrittenDate.dayText year m d) = some t ∧
        ((month m).Contains t ↔ 1 ≤ d ∧ d ≤ (Date.firstOf y (m - 1)).lengthOfMonth) := by
  have hbounds : -9999 ≤ y ∧ y ≤ 9999 := hy.bounded
  refine ⟨ofWrittenDate numbering (.year y), fun m => ofWrittenDate numbering (.month y m),
    ofIsoDate?_of_spells numbering hy,
    fun m hm => ofIsoDate?_of_spells numbering (WrittenDate.spells_monthText hy hm),
    fun m _ _ => finish_month numbering y m, rfl, finish_year numbering y,
    fun m hm => month_within_year_iff numbering hbounds hm, fun m hm d hd => ?_⟩
  have hday := WrittenDate.spells_dayText hy hm hd
  obtain ⟨t, ht⟩ := Option.isSome_iff_exists.1 (WrittenDate.isSome_start? hday.bounded)
  refine ⟨t, ?_, month_contains_day_iff numbering hbounds hm ht⟩
  rw [Instant.ofIsoDate?, WrittenDate.ofString?_eq_some_iff.2 hday, Option.bind_some, ht]

/-- Year −4 is a leap year and month 14 of it, February of year −3, is not in it. -/
theorem months_tile_year_leapYear :
    WrittenDate.Spells "-4".toList (.year (-4)) ∧
      ∃ whole february beyond,
        ofIsoDate? .historical "-4" = some whole ∧
        ofIsoDate? .historical "-4-02" = some february ∧ february.Within whole ∧
        ofIsoDate? .historical "-4-14" = some beyond ∧ ¬ beyond.Within whole ∧
        (∃ t, Instant.ofIsoDate? "-4-02-29" = some t ∧ february.Contains t) ∧
        ∃ t, Instant.ofIsoDate? "-4-14-29" = some t ∧ ¬ beyond.Contains t := by
  have hspells : WrittenDate.Spells "-4".toList (.year (-4)) :=
    WrittenDate.ofString?_eq_some_iff.1 (by decide)
  obtain ⟨whole, month, hwhole, hmonth, -, -, -, hwithin, hday⟩ :=
    months_tile_year .historical hspells
  obtain ⟨t, ht, htin⟩ := hday 2 (by decide) 29 (by decide)
  obtain ⟨u, hu, huin⟩ := hday 14 (by decide) 29 (by decide)
  refine ⟨hspells, whole, month 2, month 14, hwhole, hmonth 2 (by decide),
    (hwithin 2 (by decide)).2 (by decide), hmonth 14 (by decide), ?_, ⟨t, ht, htin.2 ?_⟩, u, hu, ?_⟩
  · rw [hwithin 14 (by decide)]
    decide
  · decide
  · rw [huin]
    decide

end Period

end Chronomap
