import Mathlib.Data.Rat.Floor
import Mathlib.Tactic.Linarith
import Mathlib.Tactic.Positivity
import Mathlib.Tactic.Ring
import Chronomap.Calendar.DecimalYear

/-!
# The order of decimal years

Taken exactly, before it is rounded to a double, a decimal year tells milliseconds apart and keeps
their order.  Both numberings keep the order of the years, outside leap seconds the fraction stays
below one, and within one year it grows with the milliseconds that have passed:

    t.millisecond = yearStart t.date.year * 86400000 +
      (t.decimalYear n).elapsed                                   (Instant.millisecond_eq)
    ⌊(t.decimalYear n).value⌋ = n.number t.date.year              (Instant.floor_value_decimalYear)
    (a.decimalYear n).value < (b.decimalYear n).value ↔
      a.millisecond < b.millisecond                               (Instant.value_decimalYear_lt_iff)

The first holds of leap seconds too.
-/

namespace Chronomap

/-! ## Numbering -/

namespace Numbering

theorem number_lt_number_iff (n : Numbering) {y z : Int} : n.number y < n.number z ↔ y < z := by
  cases n with
  | astronomical => exact Iff.rfl
  | historical =>
    simp only [number]
    split <;> split <;> omega

theorem number_inj (n : Numbering) {y z : Int} : n.number y = n.number z ↔ y = z := by
  have hlt := n.number_lt_number_iff (y := y) (z := z)
  have hgt := n.number_lt_number_iff (y := z) (z := y)
  omega

/-- The year before year 0 is numbered −2. -/
theorem number_historical_ne (y : Int) : historical.number y ≠ -1 := by
  simp only [number]
  split <;> omega

end Numbering

/-! ## Exact decimal years -/

namespace DecimalYear

/-- The decimal year as an exact number. -/
def value (y : DecimalYear) : ℚ := y.whole + (y.elapsed : ℚ) / y.length

/-- Less than the whole year has passed. -/
def IsProper (y : DecimalYear) : Prop := y.elapsed < y.length

/-- In years of one number and one length the time that has passed decides. -/
theorem value_lt_value_iff_of_whole_eq {x y : DecimalYear} (hwhole : x.whole = y.whole)
    (hlength : x.length = y.length) (hpos : 0 < y.length) :
    x.value < y.value ↔ x.elapsed < y.elapsed := by
  rw [value, value, hwhole, hlength, add_lt_add_iff_left,
    div_lt_div_iff_of_pos_right (Nat.cast_pos.2 hpos), Nat.cast_lt]

section

variable {x y : DecimalYear} (hx : x.IsProper) (hy : y.IsProper)

include hx

theorem IsProper.length_pos : (0 : ℚ) < x.length :=
  Nat.cast_pos.2 (Nat.lt_of_le_of_lt (Nat.zero_le _) hx)

theorem IsProper.fraction_lt_one : (x.elapsed : ℚ) / x.length < 1 := by
  rw [div_lt_one hx.length_pos]
  exact Nat.cast_lt.2 hx

theorem floor_value : ⌊x.value⌋ = x.whole := by
  have hnonneg : (0 : ℚ) ≤ x.elapsed / x.length := by positivity
  have hlt := hx.fraction_lt_one
  rw [Int.floor_eq_iff, value]
  constructor <;> linarith

/-- A decimal year is a whole number only when the year starts. -/
theorem exists_value_eq_iff : (∃ n : ℤ, x.value = n) ↔ x.elapsed = 0 := by
  constructor
  · rintro ⟨n, hn⟩
    have hwhole : x.whole = n := by rw [← floor_value hx, hn, Int.floor_intCast]
    have hfraction : (x.elapsed : ℚ) / x.length = 0 := by
      rw [value, hwhole] at hn
      linarith
    rcases div_eq_zero_iff.1 hfraction with helapsed | hlength
    · exact Nat.cast_eq_zero.1 helapsed
    · exact absurd hlength hx.length_pos.ne'
  · intro h
    exact ⟨x.whole, by rw [value, h, Nat.cast_zero, zero_div, add_zero]⟩

include hy

theorem value_lt_value_of_whole_lt (h : x.whole < y.whole) : x.value < y.value := by
  rw [← floor_value hx, ← floor_value hy] at h
  exact Int.floor_mono.reflect_lt h

/-- Decimal years are compared by their whole parts first, and then by the time that has passed
if years of the same number are equally long. -/
theorem value_lt_value_iff (hlength : x.whole = y.whole → x.length = y.length) :
    x.value < y.value ↔ x.whole < y.whole ∨ x.whole = y.whole ∧ x.elapsed < y.elapsed := by
  rcases lt_trichotomy x.whole y.whole with hlt | heq | hgt
  · exact iff_of_true (value_lt_value_of_whole_lt hx hy hlt) (.inl hlt)
  · have hpos : 0 < y.length := Nat.cast_pos.1 hy.length_pos
    rw [value_lt_value_iff_of_whole_eq heq (hlength heq) hpos]
    omega
  · have hrev := value_lt_value_of_whole_lt hy hx hgt
    exact iff_of_false hrev.not_gt (by omega)

end

end DecimalYear

/-! ## Milliseconds -/

theorem Date.dayOfYear_eq_zero_iff (d : Date) : d.dayOfYear = 0 ↔ d.month = 1 ∧ d.day = 1 := by
  have hday := d.day_mem
  have hmonth := d.month_mem
  have hfebruary : daysBeforeMonth d.year 2 = 31 := rfl
  unfold dayOfYear
  by_cases hlater : 2 ≤ d.month
  · have hbefore := daysBeforeMonth_mono d.year hlater
    omega
  · have hjanuary : d.month = 1 := by omega
    have hbefore : daysBeforeMonth d.year 1 = 0 := rfl
    rw [hjanuary]
    omega

namespace Instant

/-- Milliseconds since 1970-01-01T00:00:00Z, rounded down. -/
def millisecond (t : Instant) : Int := (t.secs * 1000000000 + t.nanos) / 1000000

/-- The instant is not inside a leap second. -/
def IsRegular (t : Instant) : Prop := t.nanos < 1000000000

instance (t : Instant) : Decidable t.IsRegular :=
  inferInstanceAs (Decidable (t.nanos < 1000000000))

/-- The first millisecond of a January 1. -/
def StartsYear (t : Instant) : Prop :=
  t.date.month = 1 ∧ t.date.day = 1 ∧ t.secondOfDay = 0 ∧ t.nanos / 1000000 = 0

instance (t : Instant) : Decidable t.StartsYear :=
  inferInstanceAs (Decidable
    (t.date.month = 1 ∧ t.date.day = 1 ∧ t.secondOfDay = 0 ∧ t.nanos / 1000000 = 0))

theorem millisecond_eq (t : Instant) (n : Numbering) :
    t.millisecond = yearStart t.date.year * 86400000 + (t.decimalYear n).elapsed := by
  have hday : t.date.dayNumber = t.dayNumber := Date.dayNumber_ofDayNumber _
  have hfirst := t.date.day_mem
  simp only [Date.dayNumber, dayNumber] at hday
  simp only [millisecond, decimalYear, Date.dayOfYear, secondOfDay]
  omega

/-- Outside leap seconds a year is not over before the next one starts. -/
theorem IsRegular.isProper_decimalYear {t : Instant} (h : t.IsRegular) (n : Numbering) :
    (t.decimalYear n).IsProper := by
  have hday := t.date.dayOfYear_lt
  unfold IsRegular at h
  simp only [DecimalYear.IsProper, decimalYear, secondOfDay]
  omega

theorem elapsed_decimalYear_eq_zero_iff (t : Instant) (n : Numbering) :
    (t.decimalYear n).elapsed = 0 ↔ t.StartsYear := by
  simp only [StartsYear, ← and_assoc, ← Date.dayOfYear_eq_zero_iff]
  simp only [decimalYear]
  omega

section

variable {a b : Instant} (ha : a.IsRegular) (hb : b.IsRegular) (n : Numbering)

include ha

theorem millisecond_lt_of_year_lt (h : a.date.year < b.date.year) :
    a.millisecond < b.millisecond := by
  have hproper := ha.isProper_decimalYear .astronomical
  have hlength := yearLength_eq a.date.year
  have hyears := @yearStart_le_yearStart (a.date.year + 1) b.date.year h
  rw [a.millisecond_eq .astronomical, b.millisecond_eq .astronomical]
  simp only [DecimalYear.IsProper, decimalYear] at hproper ⊢
  omega

theorem floor_value_decimalYear : ⌊(a.decimalYear n).value⌋ = n.number a.date.year :=
  DecimalYear.floor_value (ha.isProper_decimalYear n)

include hb

/-- Milliseconds are ordered by their years and then by what has passed of the year. -/
theorem millisecond_lt_iff :
    a.millisecond < b.millisecond ↔
      a.date.year < b.date.year ∨
        a.date.year = b.date.year ∧ (a.decimalYear n).elapsed < (b.decimalYear n).elapsed := by
  rcases Int.lt_trichotomy a.date.year b.date.year with hlt | heq | hgt
  · exact iff_of_true (millisecond_lt_of_year_lt ha hlt) (.inl hlt)
  · rw [a.millisecond_eq n, b.millisecond_eq n, heq]
    omega
  · have hrev := millisecond_lt_of_year_lt hb hgt
    exact iff_of_false (Int.lt_asymm hrev) (by omega)

theorem value_decimalYear_lt_iff :
    (a.decimalYear n).value < (b.decimalYear n).value ↔ a.millisecond < b.millisecond := by
  have hlength : (a.decimalYear n).whole = (b.decimalYear n).whole →
      (a.decimalYear n).length = (b.decimalYear n).length := by
    intro h
    simp only [decimalYear, n.number_inj.1 h]
  rw [DecimalYear.value_lt_value_iff (ha.isProper_decimalYear n) (hb.isProper_decimalYear n)
    hlength, millisecond_lt_iff ha hb n]
  simp only [decimalYear, n.number_lt_number_iff, n.number_inj]

theorem value_decimalYear_eq_iff :
    (a.decimalYear n).value = (b.decimalYear n).value ↔ a.millisecond = b.millisecond := by
  simp only [le_antisymm_iff, ← not_lt, value_decimalYear_lt_iff ha hb n,
    value_decimalYear_lt_iff hb ha n]

end

theorem value_decimalYear_historical (t : Instant) :
    (t.decimalYear .historical).value =
      if t.date.year < 0 then (t.decimalYear .astronomical).value - 1
      else (t.decimalYear .astronomical).value := by
  simp only [DecimalYear.value, decimalYear, Numbering.number]
  split
  · push_cast
    ring
  · rfl

theorem not_value_decimalYear_historical_mem {t : Instant} (h : t.IsRegular) :
    ¬ (-1 ≤ (t.decimalYear .historical).value ∧ (t.decimalYear .historical).value < 0) := by
  rintro ⟨hle, hlt⟩
  have hfloor : ⌊(t.decimalYear .historical).value⌋ = -1 := by
    rw [Int.floor_eq_iff]
    constructor <;> push_cast <;> linarith
  rw [floor_value_decimalYear h] at hfloor
  exact Numbering.number_historical_ne _ hfloor

/-- Decimal years embed the order of time, to the millisecond.  A whole number is the first
millisecond of a year, and the floor is the year.  The historical numbering puts the years before
year 0 one lower, so that it has nothing between −1 and 0. -/
theorem decimalYear_embeds_time (n : Numbering) (a b : Instant) (ha : a.IsRegular)
    (hb : b.IsRegular) :
    ((a.decimalYear n).value < (b.decimalYear n).value ↔ a.millisecond < b.millisecond) ∧
      ((a.decimalYear n).value = (b.decimalYear n).value ↔ a.millisecond = b.millisecond) ∧
      ((∃ k : ℤ, (a.decimalYear n).value = k) ↔ a.StartsYear) ∧
      ⌊(a.decimalYear .astronomical).value⌋ = a.date.year ∧
      (a.decimalYear .historical).value =
        (if a.date.year < 0 then (a.decimalYear .astronomical).value - 1
        else (a.decimalYear .astronomical).value) ∧
      ¬ (-1 ≤ (a.decimalYear .historical).value ∧ (a.decimalYear .historical).value < 0) := by
  refine ⟨value_decimalYear_lt_iff ha hb n, value_decimalYear_eq_iff ha hb n, ?_,
    floor_value_decimalYear ha .astronomical, value_decimalYear_historical a,
    not_value_decimalYear_historical_mem ha⟩
  rw [DecimalYear.exists_value_eq_iff (ha.isProper_decimalYear n),
    elapsed_decimalYear_eq_zero_iff]

/-- The last millisecond before year 0 and the moment at which year 0 starts, which are a year
further apart in the historical numbering. -/
theorem decimalYear_embeds_time_yearZero :
    let before : Instant := ⟨-62167219201, 999000000, by decide, by decide⟩
    let start : Instant := ⟨-62167219200, 0, by decide, by decide⟩
    (before.IsRegular ∧ start.IsRegular) ∧
      (before.decimalYear .historical).value < (start.decimalYear .historical).value ∧
      (before.decimalYear .historical).value ≠ (start.decimalYear .historical).value ∧
      (¬ ∃ k : ℤ, (before.decimalYear .historical).value = k) ∧
      (∃ k : ℤ, (start.decimalYear .historical).value = k) ∧
      ⌊(before.decimalYear .astronomical).value⌋ = -1 ∧
      (before.decimalYear .historical).value = (before.decimalYear .astronomical).value - 1 := by
  intro before start
  have hbefore : before.IsRegular := by decide
  have hstart : start.IsRegular := by decide
  have hyear : before.date.year = -1 := by decide
  obtain ⟨hlt, heq, hnot, hfloor, hlower, -⟩ :=
    decimalYear_embeds_time .historical before start hbefore hstart
  obtain ⟨-, -, hwhole, -, -, -⟩ :=
    decimalYear_embeds_time .historical start before hstart hbefore
  refine ⟨⟨hbefore, hstart⟩, hlt.2 (by decide), heq.not.2 (by decide), hnot.not.2 (by decide),
    hwhole.2 (by decide), hfloor.trans hyear, ?_⟩
  rw [hlower, hyear]
  rfl

end Instant

end Chronomap
