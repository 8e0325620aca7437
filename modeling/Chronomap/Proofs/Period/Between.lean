import Chronomap.Period
import Chronomap.Proofs.Calendar.DecimalOrder
import Chronomap.Proofs.Calendar.TextOrder

/-!
# Periods between two instants

Two instants make a period if the first is not after the second.  As decimal years the two ends are
in order as well, unless the start is inside a leap second: its milliseconds are counted on into the
next second, and so it can get ahead of a finish that comes right after it.

    s ≤ f → ((s.decimalYear n).value ≤ (f.decimalYear n).value ↔ ¬ s.Overtakes n f)
                                                        (Instant.value_decimalYear_le_iff)

At the end of a year both are measured in parts of their own years, which need not be equally long.
-/

namespace Chronomap

/-! ## Exact decimal years -/

namespace DecimalYear

variable {x y : DecimalYear} (hx : 0 < x.length)

include hx

/-- In years of consecutive numbers the later one is a whole year ahead. -/
theorem value_le_value_iff_of_whole_succ (hy : 0 < y.length) (hwhole : y.whole = x.whole + 1) :
    x.value ≤ y.value ↔ x.elapsed * y.length ≤ (y.length + y.elapsed) * x.length := by
  have hx' : (0 : ℚ) < x.length := Nat.cast_pos.2 hx
  have hy' : (0 : ℚ) < y.length := Nat.cast_pos.2 hy
  have hvalue : y.value = x.whole + ((y.length + y.elapsed : ℕ) : ℚ) / y.length := by
    rw [value, hwhole, Nat.cast_add, add_div, div_self hy'.ne']
    push_cast
    ring
  rw [hvalue, value, add_le_add_iff_left, div_le_div_iff₀ hx' hy']
  exact_mod_cast Iff.rfl

/-- Less than two years are never more than two years. -/
theorem value_le_value_of_whole_add_two_le (hwhole : x.whole + 2 ≤ y.whole)
    (helapsed : x.elapsed ≤ 2 * x.length) : x.value ≤ y.value := by
  have hx' : (0 : ℚ) < x.length := Nat.cast_pos.2 hx
  have hfraction : (x.elapsed : ℚ) / x.length ≤ 2 := by
    rw [div_le_iff₀ hx']
    exact_mod_cast helapsed
  have hnonneg : (0 : ℚ) ≤ y.elapsed / y.length := by positivity
  have hwhole' : (x.whole : ℚ) + 2 ≤ y.whole := by exact_mod_cast hwhole
  rw [value, value]
  linarith

end DecimalYear

/-! ## Leap seconds -/

theorem yearLength_cases (y : Int) : yearLength y = 365 ∨ yearLength y = 366 := by
  unfold yearLength
  split
  · exact .inr rfl
  · exact .inl rfl

theorem Numbering.eq_succ_of_number {n : Numbering} {y z : Int}
    (h : n.number z = n.number y + 1) : z = y + 1 := by
  cases n with
  | astronomical => exact h
  | historical =>
    simp only [number] at h
    split at h <;> split at h <;> omega

namespace Instant

/-- Milliseconds from the end of the second that `s` is in to the instant `t`; inside a leap second
those that `s` itself has run on. -/
def pastSecond (s t : Instant) : Int := t.millisecond - (s.secs + 1) * 1000

/-- An instant inside a leap second has run on further than `f` is after the full second, if both
are measured in parts of their own years and no year is numbered between them. -/
def Overtakes (n : Numbering) (s f : Instant) : Prop :=
  ¬ s.IsRegular ∧ n.number f.date.year ≤ n.number s.date.year + 1 ∧
    s.pastSecond f * (s.decimalYear n).length < s.pastSecond s * (f.decimalYear n).length

instance (n : Numbering) (s f : Instant) : Decidable (s.Overtakes n f) :=
  inferInstanceAs (Decidable (¬ s.IsRegular ∧ n.number f.date.year ≤ n.number s.date.year + 1 ∧
    s.pastSecond f * (s.decimalYear n).length < s.pastSecond s * (f.decimalYear n).length))

theorem length_decimalYear (t : Instant) (n : Numbering) :
    (t.decimalYear n).length = yearLength t.date.year * 86400000 := rfl

/-- A year has more than a second. -/
theorem le_length_decimalYear (t : Instant) (n : Numbering) :
    1000 ≤ (t.decimalYear n).length := by
  have hlength := yearLength_cases t.date.year
  rw [length_decimalYear]
  omega

theorem length_decimalYear_pos (t : Instant) (n : Numbering) : 0 < (t.decimalYear n).length :=
  Nat.lt_of_lt_of_le (by decide) (t.le_length_decimalYear n)

theorem elapsed_decimalYear_lt (t : Instant) (n : Numbering) :
    (t.decimalYear n).elapsed < (t.decimalYear n).length + 1000 := by
  have hday := t.date.dayOfYear_lt
  have hnanos := t.nanos_lt
  simp only [decimalYear, secondOfDay]
  omega

theorem secs_lt_yearStart (t : Instant) : t.secs < yearStart (t.date.year + 1) * 86400 := by
  have hday := lt_yearStart_yearOfDay t.dayNumber
  have hyear : t.date.year = yearOfDay t.dayNumber := rfl
  rw [hyear]
  unfold dayNumber at *
  omega

theorem year_le_of_le {s f : Instant} (h : s ≤ f) : s.date.year ≤ f.date.year := by
  refine Int.not_lt.1 fun hlt => ?_
  have hday := Date.dayNumber_lt_of_year_lt hlt
  rw [dayNumber_date, dayNumber_date] at hday
  rw [le_iff] at h
  unfold dayNumber at hday
  omega

/-- Only instants inside leap seconds count their milliseconds on past the second. -/
theorem pastSecond_self_neg_iff (t : Instant) : t.pastSecond t < 0 ↔ t.IsRegular := by
  simp only [pastSecond, millisecond, IsRegular]
  omega

section

variable {s f : Instant} (n : Numbering)

theorem value_le_iff_of_year_eq (h : s ≤ f) (hyear : s.date.year = f.date.year) :
    (s.decimalYear n).value ≤ (f.decimalYear n).value ↔ ¬ s.Overtakes n f := by
  have hwhole : (s.decimalYear n).whole = (f.decimalYear n).whole := by
    simp only [decimalYear, hyear]
  have hlength : (s.decimalYear n).length = (f.decimalYear n).length := by
    simp only [decimalYear, hyear]
  have hpos : (0 : Int) < (f.decimalYear n).length := by
    exact_mod_cast f.length_decimalYear_pos n
  have hs := s.millisecond_eq n
  have hf := f.millisecond_eq n
  rw [← not_lt, DecimalYear.value_lt_value_iff_of_whole_eq hwhole.symm hlength.symm
    (s.length_decimalYear_pos n)]
  unfold Overtakes
  rw [hlength, hyear, Int.mul_lt_mul_right hpos, ← pastSecond_self_neg_iff]
  rw [hyear] at hs
  rw [le_iff] at h
  simp only [pastSecond, millisecond] at *
  omega

theorem value_le_iff_of_year_succ (hyear : f.date.year = s.date.year + 1)
    (hnumber : n.number f.date.year = n.number s.date.year + 1) :
    (s.decimalYear n).value ≤ (f.decimalYear n).value ↔ ¬ s.Overtakes n f := by
  have hs := s.millisecond_eq n
  have hf := f.millisecond_eq n
  have hlength := yearLength_eq s.date.year
  have hsecs := s.secs_lt_yearStart
  have hnanos := s.nanos_lt
  rw [DecimalYear.value_le_value_iff_of_whole_succ (s.length_decimalYear_pos n)
    (f.length_decimalYear_pos n) hnumber]
  unfold Overtakes IsRegular
  rw [length_decimalYear, length_decimalYear]
  rw [hyear] at hf
  simp only [pastSecond, millisecond] at *
  -- A leap second that is not at the end of the year is at least a minute before it.
  rcases yearLength_cases s.date.year with hs' | hs' <;>
    rcases yearLength_cases f.date.year with hf' | hf' <;>
    rw [hs'] at hlength ⊢ <;> rw [hf'] <;> omega

/-- The ends of a period are in order as decimal years unless the start overtakes the finish. -/
theorem value_decimalYear_le_iff (h : s ≤ f) :
    (s.decimalYear n).value ≤ (f.decimalYear n).value ↔ ¬ s.Overtakes n f := by
  rcases Int.lt_or_eq_of_le (year_le_of_le h) with hlt | heq
  · by_cases hnumber : n.number f.date.year = n.number s.date.year + 1
    · exact value_le_iff_of_year_succ n (Numbering.eq_succ_of_number hnumber) hnumber
    · have hless := (n.number_lt_number_iff).2 hlt
      -- The numbers are two apart, and no instant runs on by two lengths of its year.
      have hnumbers : (s.decimalYear n).whole + 2 ≤ (f.decimalYear n).whole := by
        show n.number s.date.year + 2 ≤ n.number f.date.year
        omega
      have helapsed : (s.decimalYear n).elapsed ≤ 2 * (s.decimalYear n).length := by
        have hrun := s.elapsed_decimalYear_lt n
        have hlength := s.le_length_decimalYear n
        omega
      refine iff_of_true ?_ fun hover => ?_
      · exact DecimalYear.value_le_value_of_whole_add_two_le (s.length_decimalYear_pos n)
          hnumbers helapsed
      · have hnear := hover.2.1
        omega
  · exact value_le_iff_of_year_eq n h heq

/-- What an instant overtakes is in the two seconds after it. -/
theorem Overtakes.secs_le {n : Numbering} (h : s.Overtakes n f) : f.secs ≤ s.secs + 2 := by
  obtain ⟨-, -, hpast⟩ := h
  have hnanos := s.nanos_lt
  rw [length_decimalYear, length_decimalYear] at hpast
  simp only [pastSecond, millisecond] at hpast
  rcases yearLength_cases s.date.year with hs | hs <;>
    rcases yearLength_cases f.date.year with hf | hf <;>
    rw [hs, hf] at hpast <;> omega

end

end Instant

/-! ## Periods -/

namespace Period

theorem between?_eq_some_iff {n : Numbering} {s f : Instant} {p : Period} :
    between? n s f = some p ↔ s ≤ f ∧ p = ofInstants? n (some s) (some f) := by
  unfold between?
  split
  · next h => simp [h, eq_comm]
  · next h => simp [h]

theorem isSome_between?_iff {n : Numbering} {s f : Instant} :
    (between? n s f).isSome ↔ s ≤ f := by
  simp only [Option.isSome_iff_exists, between?_eq_some_iff]
  exact ⟨fun ⟨_, hle, _⟩ => hle, fun hle => ⟨_, hle, rfl⟩⟩

/-- Two instants make a period exactly if they are in order.  Its ends are then in order as decimal
years too, unless the start is inside a leap second and overtakes the finish, which it can only do
in the next two seconds. -/
theorem between?_ordered_iff (n : Numbering) (s f : Instant) :
    ((between? n s f).isSome ↔ s ≤ f) ∧
      ∀ p, between? n s f = some p →
        p = ofInstants? n (some s) (some f) ∧
        ((s.decimalYear n).value ≤ (f.decimalYear n).value ↔ ¬ s.Overtakes n f) ∧
        (s.IsRegular → (s.decimalYear n).value ≤ (f.decimalYear n).value) ∧
        (s.Overtakes n f → f.secs ≤ s.secs + 2) := by
  refine ⟨isSome_between?_iff, fun p hp => ?_⟩
  obtain ⟨hle, hperiod⟩ := between?_eq_some_iff.1 hp
  have hiff := Instant.value_decimalYear_le_iff n hle
  exact ⟨hperiod, hiff, fun hregular => hiff.2 fun hover => hover.1 hregular,
    Instant.Overtakes.secs_le⟩

def halfLeapSecond : Instant := ⟨1483228799, 1500000000, by decide, by decide⟩

def newYear2017 : Instant := ⟨1483228800, 0, by decide, by decide⟩

/-- Six tenths of a second after the leap second the decimal years are in order again. -/
theorem between?_ordered_iff_afterLeapSecond :
    let later : Instant := ⟨1483228800, 600000000, by decide, by decide⟩
    (between? .astronomical halfLeapSecond later).isSome ∧ ¬ halfLeapSecond.IsRegular ∧
      (halfLeapSecond.decimalYear .astronomical).value ≤
        (later.decimalYear .astronomical).value := by
  intro later
  obtain ⟨hsome, hends⟩ := between?_ordered_iff .astronomical halfLeapSecond later
  have hbetween := hsome.2 (by decide)
  obtain ⟨p, hp⟩ := Option.isSome_iff_exists.1 hbetween
  obtain ⟨-, hiff, -, -⟩ := hends p hp
  exact ⟨hbetween, by decide, hiff.2 (by decide)⟩

/-- Half of a leap second is before the year that follows it, and after it as a decimal year. -/
theorem between?_newYear2017_not_ordered :
    (between? .astronomical halfLeapSecond newYear2017).isSome ∧
      (newYear2017.decimalYear .astronomical).value <
        (halfLeapSecond.decimalYear .astronomical).value ∧
      ¬ ∀ (n : Numbering) (s f : Instant), ((between? n s f).isSome ↔ s ≤ f) ∧
        (s ≤ f → (s.decimalYear n).value ≤ (f.decimalYear n).value) := by
  have hle : halfLeapSecond ≤ newYear2017 := by decide
  have hlt : (newYear2017.decimalYear .astronomical).value <
      (halfLeapSecond.decimalYear .astronomical).value := by
    rw [← not_le, Instant.value_decimalYear_le_iff .astronomical hle]
    decide
  refine ⟨isSome_between?_iff.2 hle, hlt, fun h => ?_⟩
  exact absurd ((h .astronomical halfLeapSecond newYear2017).2 hle) (not_le.2 hlt)

end Period

end Chronomap
