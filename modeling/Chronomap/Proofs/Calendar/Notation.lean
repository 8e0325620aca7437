import Chronomap.Calendar.WrittenDate
import Chronomap.Proofs.Text.Digits

/-!
# The notation of dates

A date in writing is a year of one to four digits, with a dash before it in the years before year
0, and then nothing, a dash and a month of two digits, or a dash, a month, a dash and a day of two
digits.  The reader takes the whole text or nothing, and it takes all of these texts:

    ofString? s = some d ↔ Spells s.toList d                   (WrittenDate.ofString?_eq_some_iff)

It needs no look-ahead: the year is all the digits there are, since what follows it is no digit
(`WrittenDate.Follows.stops`).
-/

namespace Chronomap.WrittenDate

/-! ## Grammar -/

/-- A run of digits that is neither shorter nor longer than it may be. -/
structure IsField (least most : Nat) (cs : List Char) : Prop where
  isDigit : ∀ c ∈ cs, c.isDigit = true
  least_le : least ≤ cs.length
  le_most : cs.length ≤ most

/-- The sign of a year: nothing, or a dash that makes the year negative. -/
inductive Sign : List Char → Int → Prop where
  | plus : Sign [] 1
  | minus : Sign ['-'] (-1)

/-- What follows the year `y` in the text of a date. -/
inductive Follows (y : Int) : List Char → WrittenDate → Prop where
  | year : Follows y [] (.year y)
  | month {ms : List Char} (hm : IsField 2 2 ms) : Follows y ('-' :: ms) (.month y (Digits.value ms))
  | day {ms ds : List Char} (hm : IsField 2 2 ms) (hd : IsField 2 2 ds) :
      Follows y ('-' :: ms ++ '-' :: ds) (.day y (Digits.value ms) (Digits.value ds))

/-- A text is the spelling of a date. -/
inductive Spells : List Char → WrittenDate → Prop where
  | intro {sign ys rest : List Char} {s : Int} {d : WrittenDate} (hs : Sign sign s)
      (hy : IsField 1 4 ys) (hrest : Follows (s * Digits.value ys) rest d) :
      Spells (sign ++ ys ++ rest) d

theorem Follows.stops {y : Int} {rest : List Char} {d : WrittenDate} (h : Follows y rest d) :
    Digits.Stops rest := by
  cases h with
  | year => exact Digits.stops_nil
  | month => exact Digits.stops_cons rfl _
  | day => exact Digits.stops_cons rfl _

/-! ## After the year -/

theorem IsField.length_eq {n : Nat} {cs : List Char} (h : IsField n n cs) : cs.length = n :=
  Nat.le_antisymm h.le_most h.least_le

theorem IsField.eq_pair {cs : List Char} (h : IsField 2 2 cs) : ∃ a b, cs = [a, b] := by
  match cs, h.length_eq with
  | [a, b], _ => exact ⟨a, b, rfl⟩

theorem twoDigits?_eq_some_iff {a b : Char} {n : Nat} :
    twoDigits? a b = some n ↔ IsField 2 2 [a, b] ∧ Digits.value [a, b] = n := by
  unfold twoDigits?
  constructor
  · intro h
    split at h
    · next hdigits =>
      refine ⟨⟨?_, Nat.le_refl 2, Nat.le_refl 2⟩, Option.some.inj h⟩
      simpa using hdigits
    · cases h
  · rintro ⟨hfield, rfl⟩
    have hdigits : (a.isDigit && b.isDigit) = true := by
      simpa using hfield.isDigit
    rw [if_pos hdigits]

theorem afterYear?_eq_some_iff {y : Int} {rest : List Char} {d : WrittenDate} :
    afterYear? y rest = some d ↔ Follows y rest d := by
  constructor
  · intro h
    unfold afterYear? at h
    split at h
    · obtain rfl := Option.some.inj h
      exact .year
    · obtain ⟨m, hm, rfl⟩ := Option.map_eq_some_iff.1 h
      obtain ⟨hmonth, rfl⟩ := twoDigits?_eq_some_iff.1 hm
      exact .month hmonth
    · obtain ⟨m, hm, h⟩ := Option.bind_eq_some_iff.1 h
      obtain ⟨k, hk, rfl⟩ := Option.map_eq_some_iff.1 h
      obtain ⟨hmonth, rfl⟩ := twoDigits?_eq_some_iff.1 hm
      obtain ⟨hday, rfl⟩ := twoDigits?_eq_some_iff.1 hk
      exact .day hmonth hday
    · cases h
  · intro h
    cases h with
    | year => rfl
    | month hmonth =>
      obtain ⟨a, b, rfl⟩ := hmonth.eq_pair
      rw [afterYear?, twoDigits?_eq_some_iff.2 ⟨hmonth, rfl⟩, Option.map_some]
    | day hmonth hday =>
      obtain ⟨a, b, rfl⟩ := hmonth.eq_pair
      obtain ⟨c, e, rfl⟩ := hday.eq_pair
      rw [List.cons_append, List.cons_append, List.cons_append, List.nil_append, afterYear?,
        twoDigits?_eq_some_iff.2 ⟨hmonth, rfl⟩, Option.bind_some,
        twoDigits?_eq_some_iff.2 ⟨hday, rfl⟩, Option.map_some]

/-! ## Whole texts -/

theorem ofUnsigned?_eq_some_iff {s : Int} {cs : List Char} {d : WrittenDate} :
    ofUnsigned? s cs = some d ↔
      ∃ ys rest, cs = ys ++ rest ∧ IsField 1 4 ys ∧ Follows (s * Digits.value ys) rest d := by
  unfold ofUnsigned?
  constructor
  · intro h
    simp only at h
    split at h
    · next hlength =>
      exact ⟨cs.takeWhile Char.isDigit, cs.dropWhile Char.isDigit,
        List.takeWhile_append_dropWhile.symm,
        ⟨List.all_eq_true.1 List.all_takeWhile, hlength.1, hlength.2⟩,
        afterYear?_eq_some_iff.1 h⟩
    · cases h
  · rintro ⟨ys, rest, rfl, hy, hrest⟩
    rw [Digits.takeWhile_append hy.isDigit hrest.stops,
      Digits.dropWhile_append hy.isDigit hrest.stops]
    exact (if_pos ⟨hy.least_le, hy.le_most⟩).trans (afterYear?_eq_some_iff.2 hrest)

/-- A text that starts with a digit has no sign. -/
theorem ofChars?_append {ys : List Char} (hy : IsField 1 4 ys) (rest : List Char) :
    ofChars? (ys ++ rest) = ofUnsigned? 1 (ys ++ rest) := by
  cases ys with
  | nil => exact absurd hy.least_le (by decide)
  | cons c ys =>
    have hc : c.isDigit = true := hy.isDigit c List.mem_cons_self
    rw [List.cons_append, ofChars?]
    rintro cs hcs
    obtain ⟨rfl, -⟩ := List.cons.inj hcs
    exact absurd hc (by decide)

theorem ofChars?_eq_some_iff {cs : List Char} {d : WrittenDate} :
    ofChars? cs = some d ↔ Spells cs d := by
  constructor
  · intro h
    unfold ofChars? at h
    split at h
    · obtain ⟨ys, rest, rfl, hy, hrest⟩ := ofUnsigned?_eq_some_iff.1 h
      exact Spells.intro .minus hy hrest
    · obtain ⟨ys, rest, rfl, hy, hrest⟩ := ofUnsigned?_eq_some_iff.1 h
      exact Spells.intro .plus hy hrest
  · rintro ⟨hs, hy, hrest⟩
    cases hs with
    | plus =>
      rw [List.nil_append, ofChars?_append hy]
      exact ofUnsigned?_eq_some_iff.2 ⟨_, _, rfl, hy, hrest⟩
    | minus => exact ofUnsigned?_eq_some_iff.2 ⟨_, _, rfl, hy, hrest⟩

/-- The reader of dates takes the texts of the grammar, and no others. -/
theorem ofString?_eq_some_iff {s : String} {d : WrittenDate} :
    ofString? s = some d ↔ Spells s.toList d := ofChars?_eq_some_iff

/-! ## Texts with a month or a day -/

/-- The text of a year with month `m` after it. -/
def monthText (year : String) (m : Nat) : String :=
  year ++ "-" ++ String.ofList (Digits.field 2 m)

/-- The text of a year with month `m` and day `d` after it. -/
def dayText (year : String) (m d : Nat) : String :=
  monthText year m ++ "-" ++ String.ofList (Digits.field 2 d)

theorem isField_field (width n : Nat) : IsField width width (Digits.field width n) where
  isDigit _ hc := Digits.isDigit_of_mem_field hc
  least_le := Nat.le_of_eq (Digits.length_field width n).symm
  le_most := Nat.le_of_eq (Digits.length_field width n)

theorem value_field_two {n : Nat} (h : n < 100) : Digits.value (Digits.field 2 n) = n := by
  rw [Digits.value_field]
  exact Nat.mod_eq_of_lt h

theorem toList_append_dash (before after : String) :
    (before ++ "-" ++ after).toList = before.toList ++ '-' :: after.toList := by
  rw [String.toList_append, String.toList_append, List.append_assoc]
  rfl

section

variable {year : String} {y : Int} (hy : Spells year.toList (.year y))

include hy

theorem spells_monthText {m : Nat} (hm : m < 100) :
    Spells (monthText year m).toList (.month y m) := by
  rw [monthText, toList_append_dash, String.toList_ofList]
  generalize year.toList = cs at hy
  obtain ⟨hsign, hdigits, hrest⟩ := hy
  cases hrest
  have hmonth := Spells.intro hsign hdigits (.month (isField_field 2 m))
  rw [value_field_two hm] at hmonth
  rwa [List.append_nil]

theorem spells_dayText {m d : Nat} (hm : m < 100) (hd : d < 100) :
    Spells (dayText year m d).toList (.day y m d) := by
  rw [dayText, toList_append_dash, monthText, toList_append_dash, String.toList_ofList,
    String.toList_ofList]
  generalize year.toList = cs at hy
  obtain ⟨hsign, hdigits, hrest⟩ := hy
  cases hrest
  have hday := Spells.intro hsign hdigits (.day (isField_field 2 m) (isField_field 2 d))
  rw [value_field_two hm, value_field_two hd] at hday
  rwa [List.append_nil, List.append_assoc]

end

end Chronomap.WrittenDate
