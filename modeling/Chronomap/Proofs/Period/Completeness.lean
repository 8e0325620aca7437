import Chronomap.Filter.Guard.Basic
import Chronomap.Proofs.Calendar.Notation

/-!
# Periods that have all their fields

A guard takes four values from a period.  A period that a selection resolves to has all of them:
a date in writing has a year of at most four digits, and the days around it are far inside the
range of days that instants reach.

    Period.ofSelection? numbering selection = some p → p.Complete      (complete_of_ofSelection?)
-/

namespace Chronomap

def Period.Complete (p : Period) : Prop := ∀ field, (p.value? field).isSome

/-! ## Instants near the present -/

theorem daysBeforeMonth_le (y : Int) (m : Nat) : daysBeforeMonth y m ≤ 31 * m := by
  induction m with
  | zero => exact Nat.le_refl _
  | succ m ih =>
    cases m with
    | zero => exact Nat.zero_le _
    | succ k =>
      have hl := monthLength_le y (k + 1)
      rw [daysBeforeMonth]
      omega

namespace Instant

/-- The first of a month in the years −20000 to 20000 is far from either end of the range. -/
theorem firstOfMonth_bounds {y m : Int} (h : -20000 ≤ y + m / 12 ∧ y + m / 12 ≤ 20000) :
    firstDay + 1000 ≤ firstOfMonth y m ∧ firstOfMonth y m + 1000 ≤ lastDay := by
  have hlow := yearStart_le_yearStart h.1
  have hhigh := yearStart_le_yearStart h.2
  have hmonth := daysBeforeMonth_le (y + m / 12) ((m % 12).toNat + 1)
  simp only [firstOfMonth, firstDay, lastDay]
  generalize yearStart (y + m / 12) = n at *
  simp only [yearStart] at *
  omega

theorem isSome_ofCivil? {y m d : Int} (hy : -20000 ≤ y + m / 12 ∧ y + m / 12 ≤ 20000)
    (hd : 0 ≤ d ∧ d ≤ 1000) : (ofCivil? y m d).isSome := by
  have hb := firstOfMonth_bounds hy
  have hfirst := (midnight?_isSome_iff (firstOfMonth y m)).2 (by omega)
  have hday := (midnight?_isSome_iff (firstOfMonth y m + (d - 1))).2 (by omega)
  obtain ⟨t, ht⟩ := Option.isSome_iff_exists.1 hfirst
  unfold ofCivil?
  rw [ht, Option.bind_some]
  exact hday

end Instant

/-! ## Dates in writing -/

namespace WrittenDate

/-- The parts of a date are as large as their digits allow. -/
def Bounded : WrittenDate → Prop
  | year y => -9999 ≤ y ∧ y ≤ 9999
  | month y m => (-9999 ≤ y ∧ y ≤ 9999) ∧ m ≤ 99
  | day y m d => (-9999 ≤ y ∧ y ≤ 9999) ∧ m ≤ 99 ∧ d ≤ 99

theorem IsField.value_lt {least most : Nat} {cs : List Char} (h : IsField least most cs) :
    Digits.value cs < Nat.pow 10 most :=
  Nat.lt_of_lt_of_le (Digits.value_lt cs (List.all_eq_true.2 h.isDigit))
    (Nat.pow_le_pow_right (by decide) h.le_most)

theorem Follows.bounded {y : Int} {rest : List Char} {d : WrittenDate}
    (hy : -9999 ≤ y ∧ y ≤ 9999) (h : Follows y rest d) : d.Bounded := by
  cases h with
  | year => exact hy
  | month hm => exact ⟨hy, Nat.le_of_lt_succ hm.value_lt⟩
  | day hm hd => exact ⟨hy, Nat.le_of_lt_succ hm.value_lt, Nat.le_of_lt_succ hd.value_lt⟩

theorem Spells.bounded {cs : List Char} {d : WrittenDate} (h : Spells cs d) : d.Bounded := by
  obtain ⟨hs, hy, hrest⟩ := h
  have hlt := hy.value_lt
  have h4 : Nat.pow 10 4 = 10000 := by decide
  refine hrest.bounded ?_
  cases hs <;> omega

theorem bounded_of_ofString? {s : String} {d : WrittenDate} (h : ofString? s = some d) :
    d.Bounded := (ofString?_eq_some_iff.1 h).bounded

theorem isSome_start? {d : WrittenDate} (h : d.Bounded) : d.start?.isSome := by
  cases d with
  | year y =>
    simp only [Bounded] at h
    exact Instant.isSome_ofCivil? (by omega) (by omega)
  | month y m =>
    simp only [Bounded] at h
    exact Instant.isSome_ofCivil? (by omega) (by omega)
  | day y m d =>
    simp only [Bounded] at h
    exact Instant.isSome_ofCivil? (by omega) (by omega)

theorem isSome_finish? {d : WrittenDate} (h : d.Bounded) : d.finish?.isSome := by
  cases d with
  | year y =>
    simp only [Bounded] at h
    exact Instant.isSome_ofCivil? (by omega) (by omega)
  | month y m =>
    simp only [Bounded] at h
    exact Instant.isSome_ofCivil? (by omega) (by omega)
  | day y m d =>
    simp only [Bounded] at h
    exact Instant.isSome_ofCivil? (by omega) (by omega)

end WrittenDate

/-! ## Periods -/

namespace Period

/-- Two known ends have all their fields. -/
theorem complete_ofInstants? (numbering : Numbering) {s f : Option Instant} (hs : s.isSome)
    (hf : f.isSome) : (ofInstants? numbering s f).Complete := by
  obtain ⟨s, rfl⟩ := Option.isSome_iff_exists.1 hs
  obtain ⟨f, rfl⟩ := Option.isSome_iff_exists.1 hf
  rintro ⟨side, scale⟩
  cases side <;> cases scale <;> rfl

theorem complete_ofWrittenDate (numbering : Numbering) {d : WrittenDate} (h : d.Bounded) :
    (ofWrittenDate numbering d).Complete :=
  complete_ofInstants? numbering (WrittenDate.isSome_start? h) (WrittenDate.isSome_finish? h)

theorem complete_of_ofIsoDate? {numbering : Numbering} {text : String} {p : Period}
    (h : ofIsoDate? numbering text = some p) : p.Complete := by
  obtain ⟨d, hd, rfl⟩ := Option.map_eq_some_iff.1 h
  exact complete_ofWrittenDate numbering (WrittenDate.bounded_of_ofString? hd)

theorem complete_of_ofSelection? {numbering : Numbering} {selection : Selection} {p : Period}
    (h : ofSelection? numbering selection = some p) : p.Complete := by
  cases selection with
  | written text => exact complete_of_ofIsoDate? h
  | exact t =>
    obtain rfl := Option.some.inj h
    exact complete_ofInstants? numbering rfl rfl

def ofYear (y : Int) : Period := ofWrittenDate .astronomical (.year y)

theorem complete_ofYear {y : Int} (h : -9999 ≤ y ∧ y ≤ 9999) : (ofYear y).Complete :=
  complete_ofWrittenDate .astronomical h

end Period

end Chronomap
