import Chronomap.Proofs.Calendar.Civil
import Chronomap.Proofs.Calendar.TextRank
import Chronomap.Proofs.Period.Tiling

/-!
# ISO dates read back

An ISO date with a year of four digits is a date in writing, and it reads back as midnight of the
day that it was written for:

    Instant.ofIsoDate? t.isoDate = some m,
      where m is midnight of the day of t, if its year is 0 to 9999      (Period.ofIsoDate?_isoDate)

A year with a sign has six digits, which is too many to be read, and a `+` is not read at all
(`WrittenDate.ofString?_signed`).  So dates of other years are refused, also those with a year
before year 0 that could be read in four digits.
-/

namespace Chronomap

namespace WrittenDate

/-- A date with a year of four digits spells its own parts. -/
theorem spells_isoChars {d : Date} (h : d.FourDigitYear) :
    Spells d.isoChars (.day d.year d.month d.day) := by
  have hyear : 1 * (Digits.value (Digits.field 4 d.year.toNat) : Int) = d.year := by
    have hnonneg := h.1
    rw [Digits.value_field, Nat.mod_eq_of_lt h.toNat_lt]
    omega
  have hfield : IsField 1 4 (Digits.field 4 d.year.toNat) :=
    ⟨fun _ hc => Digits.isDigit_of_mem_field hc, by rw [Digits.length_field]; decide,
      Nat.le_of_eq (Digits.length_field 4 _)⟩
  have hrest := Follows.day (y := d.year) (isField_field 2 d.month) (isField_field 2 d.day)
  rw [value_field_two d.month_lt_hundred, value_field_two d.day_lt_hundred, ← hyear] at hrest
  have hspells := Spells.intro .plus hfield hrest
  rw [hyear] at hspells
  rw [Date.isoChars, h.yearText_eq, List.append_assoc]
  exact hspells

/-- Six digits are too many for a year. -/
theorem ofUnsigned?_sixDigits (sign : Int) (n : Nat) (rest : List Char) :
    ofUnsigned? sign (Digits.field 6 n ++ '-' :: rest) = none := by
  refine if_neg ?_
  rw [Digits.takeWhile_append (fun _ hc => Digits.isDigit_of_mem_field hc)
    (Digits.stops_cons rfl rest), Digits.length_field]
  decide

/-- A year that is written with a sign is not read: a dash stands before too many digits, and `+` is
no sign of a year. -/
theorem ofString?_signed {t : Instant} (h : ¬ t.date.FourDigitYear) :
    ofString? t.isoDate = none := by
  have htext : ∃ rest, t.isoDate.toList =
      yearSign t.date.year :: (Digits.field 6 t.date.year.natAbs ++ '-' :: rest) := by
    refine ⟨Digits.field 2 t.date.month ++ '-' :: Digits.field 2 t.date.day, ?_⟩
    rw [Instant.isoDate, String.toList_ofList, Date.isoChars, yearText_signed h]
    simp only [List.cons_append, List.append_assoc]
  obtain ⟨rest, htext⟩ := htext
  rw [ofString?, htext, yearSign]
  split
  · exact ofUnsigned?_sixDigits (-1) _ rest
  · rfl

end WrittenDate

namespace Period

/-- Midnight of a day in a year of four digits is read back from its ISO date. -/
theorem ofIsoDate?_isoDate_of_isMidnight (numbering : Numbering) {t : Instant}
    (h : t.IsMidnight t.dayNumber) (hyear : t.date.FourDigitYear) :
    Instant.ofIsoDate? t.isoDate = some t ∧
      ofIsoDate? numbering t.isoDate = some (ofInstants? numbering (some t) (some t)) := by
  have hspells : WrittenDate.Spells t.isoDate.toList
      (.day t.date.year t.date.month t.date.day) := by
    rw [Instant.isoDate, String.toList_ofList]
    exact WrittenDate.spells_isoChars hyear
  have hfound := Instant.ofCivil?_date h
  refine ⟨?_, ?_⟩
  · rw [Instant.ofIsoDate?, WrittenDate.ofString?_eq_some_iff.2 hspells, Option.bind_some]
    exact hfound
  · rw [ofIsoDate?_of_spells numbering hspells, ofWrittenDate, WrittenDate.start?,
      WrittenDate.finish?, hfound]

/-- An ISO date reads back exactly if its year has four digits, as midnight of its day and as the
period without length there.  So an instant that was read is read again from its ISO date. -/
theorem ofIsoDate?_isoDate (numbering : Numbering) (t : Instant) :
    (t.date.FourDigitYear → ∃ m : Instant, m.IsMidnight t.dayNumber ∧
        Instant.ofIsoDate? t.isoDate = some m ∧
        ofIsoDate? numbering t.isoDate = some (ofInstants? numbering (some m) (some m))) ∧
      (¬ t.date.FourDigitYear →
        Instant.ofIsoDate? t.isoDate = none ∧ ofIsoDate? numbering t.isoDate = none) ∧
      ∀ text, Instant.ofIsoDate? text = some t → t.date.FourDigitYear →
        Instant.ofIsoDate? t.isoDate = some t := by
  refine ⟨fun hyear => ?_, fun hyear => ?_, fun text htext hyear => ?_⟩
  · obtain ⟨m, hm⟩ := Instant.exists_isMidnight_of_between (Int.le_refl t.dayNumber)
      (Int.le_refl t.dayNumber)
    have hday : m.dayNumber = t.dayNumber := hm.dayNumber_eq
    have hdate : m.date = t.date := congrArg Date.ofDayNumber hday
    -- The midnight that the day starts with is written like every other instant of the day.
    have hback := ofIsoDate?_isoDate_of_isMidnight numbering (hday ▸ hm) (hdate ▸ hyear)
    rw [Instant.isoDate_eq_iff.2 hday] at hback
    exact ⟨m, hm, hback⟩
  · have hnone := WrittenDate.ofString?_signed hyear
    rw [Instant.ofIsoDate?, ofIsoDate?, hnone]
    exact ⟨rfl, rfl⟩
  · obtain ⟨d, -, hstart⟩ := Option.bind_eq_some_iff.1 htext
    have hmidnight := WrittenDate.atMidnight_start? hstart
    rw [Instant.AtMidnight, Instant.dayNumber_date] at hmidnight
    exact (ofIsoDate?_isoDate_of_isMidnight numbering hmidnight hyear).1

/-- A leap second on a leap day, the second before year 0, and the leap day in another notation. -/
theorem ofIsoDate?_isoDate_leapDay :
    let leapSecond : Instant := ⟨-62162035201, 1500000000, by decide, by decide⟩
    let leapDay : Instant := ⟨-62162121600, 0, by decide, by decide⟩
    let lastSecond : Instant := ⟨-62167219201, 0, by decide, by decide⟩
    (leapSecond.date.FourDigitYear ∧ leapSecond.isoDate = "0000-02-29" ∧
        Instant.ofIsoDate? "0000-02-29" = some leapDay) ∧
      (¬ lastSecond.date.FourDigitYear ∧ lastSecond.isoDate = "-000001-12-31" ∧
        ofIsoDate? .historical "-000001-12-31" = none) ∧
      Instant.ofIsoDate? "0-01-60" = some leapDay ∧ leapDay.date.FourDigitYear ∧
        Instant.ofIsoDate? leapDay.isoDate = some leapDay := by
  intro leapSecond leapDay lastSecond
  have hfour : leapSecond.date.FourDigitYear := ⟨by decide, by decide⟩
  have hfour' : leapDay.date.FourDigitYear := ⟨by decide, by decide⟩
  have hsigned : ¬ lastSecond.date.FourDigitYear := fun h => absurd h.1 (by decide)
  have hread : Instant.ofIsoDate? "0-01-60" = some leapDay := by decide
  obtain ⟨m, hm, hback, -⟩ := (ofIsoDate?_isoDate .historical leapSecond).1 hfour
  obtain ⟨-, hnone⟩ := (ofIsoDate?_isoDate .historical lastSecond).2.1 hsigned
  have hday : leapDay.IsMidnight leapSecond.dayNumber := ⟨by decide, rfl⟩
  obtain rfl := hm.unique hday
  have htext : leapSecond.isoDate = "0000-02-29" := by decide
  have htext' : lastSecond.isoDate = "-000001-12-31" := by decide
  exact ⟨⟨hfour, htext, htext ▸ hback⟩, ⟨hsigned, htext', htext' ▸ hnone⟩, hread, hfour',
    (ofIsoDate?_isoDate .historical leapDay).2.2 _ hread hfour'⟩

end Period

end Chronomap
