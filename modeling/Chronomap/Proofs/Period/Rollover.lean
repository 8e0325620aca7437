import Chronomap.Proofs.Calendar.Months
import Chronomap.Proofs.Calendar.Resolutions
import Chronomap.Proofs.Period.Completeness

/-!
# The stretches of time that dates stand for

A date in writing resolves if its text is in the notation, whatever numbers its fields hold.  Months
and days that are not in the calendar roll over: counted from January of year 0, month `m` of year
`y` is month `12 * y + m`, and the day is counted on from the first of that month.

    (ofIsoDate? numbering text).isSome ↔ ∃ d, Spells text.toList d
    start ≤ finish ∧ (start = finish ↔ d.HasDay) ∧ d.Spans start.date finish.date,
      where the period of d has the ends start and finish        (Period.resolves_iff_spells)

A year finishes with the first of January and a month with the first of the month after it, so both
finish after they start (`Date.dayNumber_lt_of_months_lt`).  A day finishes where it starts.
-/

namespace Chronomap

/-! ## Instants -/

namespace Instant

def AtMidnight (t : Instant) : Prop := t.IsMidnight t.date.dayNumber

theorem dayNumber_of_ofCivil? {y m k : Int} {t : Instant} (h : ofCivil? y m k = some t) :
    t.date.dayNumber = civilDay y m k := by
  rw [dayNumber_date, (isMidnight_civilDay h).dayNumber_eq]

theorem date_eq_firstOf {y m : Int} {t : Instant} (h : ofCivil? y m 1 = some t) :
    t.date = Date.firstOf y m := by
  have hday := dayNumber_of_ofCivil? h
  rw [civilDay_one] at hday
  exact Date.dayNumber_inj hday

theorem atMidnight_of_ofCivil? {y m k : Int} {t : Instant} (h : ofCivil? y m k = some t) :
    t.AtMidnight := by
  have hmidnight := isMidnight_of_ofCivil? h
  rwa [AtMidnight, dayNumber_date, hmidnight.dayNumber_eq]

/-- Midnights of different days are ordered like their days. -/
theorem secs_lt_of_dayNumber_lt {s t : Instant} (hs : s.AtMidnight) (ht : t.AtMidnight)
    (h : s.date.dayNumber < t.date.dayNumber) : s.secs < t.secs := by
  rw [hs.1, ht.1]
  omega

end Instant

/-! ## Written dates -/

namespace WrittenDate

/-- Whether a date says which day it means. -/
def HasDay : WrittenDate → Prop
  | day _ _ _ => True
  | _ => False

/-- The days that a date starts on and finishes with. -/
def Spans : WrittenDate → (start finish : Date) → Prop
  | year y, start, finish => start.parts = (y, 1, 1) ∧ finish.parts = (y + 1, 1, 1)
  | month y m, start, finish =>
    start.IsFirstOf (12 * y + m) ∧ finish.IsFirstOf (12 * y + m + 1)
  | day y m d, start, finish =>
    (∃ first : Date, first.IsFirstOf (12 * y + m) ∧
      start.dayNumber = first.dayNumber + (d - 1)) ∧ finish = start

/-- A date without a day finishes in a later month than it starts in. -/
theorem Spans.months_lt {d : WrittenDate} {start finish : Date} (h : d.Spans start finish)
    (hd : ¬ d.HasDay) : start.months < finish.months := by
  cases d with
  | year y =>
    obtain ⟨hs, hf⟩ := h
    rw [Date.parts, Prod.mk.injEq, Prod.mk.injEq] at hs hf
    unfold Date.months
    omega
  | month y m =>
    rw [h.1.1, h.2.1]
    omega
  | day y m d => exact absurd trivial hd

section

variable {d : WrittenDate} {start finish : Instant} (hs : d.start? = some start)
  (hf : d.finish? = some finish)

include hs in
theorem atMidnight_start? : start.AtMidnight := by
  cases d <;> exact Instant.atMidnight_of_ofCivil? hs

include hf in
theorem atMidnight_finish? : finish.AtMidnight := by
  cases d <;> exact Instant.atMidnight_of_ofCivil? hf

include hs hf

theorem spans_start?_finish? : d.Spans start.date finish.date := by
  cases d with
  | year y =>
    have hjanuary : ∀ z : Int, (Date.firstOf z 0).parts = (z, 1, 1) := by
      intro z
      rw [Date.parts, Date.firstOf]
      simp
    rw [Instant.date_eq_firstOf hs, Instant.date_eq_firstOf hf]
    exact ⟨hjanuary y, hjanuary (y + 1)⟩
  | month y m =>
    rw [Instant.date_eq_firstOf hs, Instant.date_eq_firstOf hf]
    exact ⟨Date.isFirstOf_firstOf (by omega), Date.isFirstOf_firstOf rfl⟩
  | day y m d =>
    refine ⟨⟨Date.firstOf y (m - 1), Date.isFirstOf_firstOf (by omega),
      Instant.dayNumber_of_ofCivil? hs⟩, ?_⟩
    obtain rfl := Option.some.inj (hs.symm.trans hf)
    rfl

theorem dayNumber_start_lt_finish (hd : ¬ d.HasDay) :
    start.date.dayNumber < finish.date.dayNumber :=
  Date.dayNumber_lt_of_months_lt ((spans_start?_finish? hs hf).months_lt hd)

theorem start_le_finish : start ≤ finish := by
  cases d with
  | day y m d =>
    obtain rfl := Option.some.inj (hs.symm.trans hf)
    exact Instant.le_refl start
  | _ =>
    have hdays := dayNumber_start_lt_finish hs hf id
    exact Instant.le_iff.2 (.inl (Instant.secs_lt_of_dayNumber_lt (atMidnight_start? hs)
      (atMidnight_finish? hf) hdays))

theorem start_eq_finish_iff : start = finish ↔ d.HasDay := by
  cases d with
  | day y m d => exact ⟨fun _ => trivial, fun _ => Option.some.inj (hs.symm.trans hf)⟩
  | _ =>
    refine ⟨fun h => ?_, False.elim⟩
    have hlt := dayNumber_start_lt_finish hs hf id
    rw [h] at hlt
    exact absurd hlt (Int.lt_irrefl _)

end

end WrittenDate

/-! ## Texts -/

theorem Instant.isSome_ofIsoDate?_iff {text : String} :
    (Instant.ofIsoDate? text).isSome ↔ ∃ d, WrittenDate.Spells text.toList d := by
  constructor
  · intro h
    obtain ⟨start, hstart⟩ := Option.isSome_iff_exists.1 h
    obtain ⟨d, hd, -⟩ := Option.bind_eq_some_iff.1 hstart
    exact ⟨d, WrittenDate.ofString?_eq_some_iff.1 hd⟩
  · rintro ⟨d, hd⟩
    rw [ofIsoDate?, WrittenDate.ofString?_eq_some_iff.2 hd]
    exact WrittenDate.isSome_start? hd.bounded

namespace Period

theorem isSome_ofIsoDate?_iff {numbering : Numbering} {text : String} :
    (ofIsoDate? numbering text).isSome ↔ ∃ d, WrittenDate.Spells text.toList d := by
  rw [ofIsoDate?, Option.isSome_map, Option.isSome_iff_exists]
  exact exists_congr fun d => WrittenDate.ofString?_eq_some_iff

/-- Exactly the texts of the notation resolve, to an instant and to a period that starts with it. -/
theorem resolves_iff_spells (numbering : Numbering) (text : String) :
    ((Instant.ofIsoDate? text).isSome ↔ ∃ d, WrittenDate.Spells text.toList d) ∧
      ((ofIsoDate? numbering text).isSome ↔ ∃ d, WrittenDate.Spells text.toList d) ∧
      ∀ d, WrittenDate.Spells text.toList d → ∃ start finish : Instant,
        Instant.ofIsoDate? text = some start ∧
        ofIsoDate? numbering text =
          some ⟨⟨some start, some (start.decimalYear numbering).toFloat, some start.isoDate⟩,
            ⟨some finish, some (finish.decimalYear numbering).toFloat, some finish.isoDate⟩⟩ ∧
        start ≤ finish ∧ (start = finish ↔ d.HasDay) ∧
        start.AtMidnight ∧ finish.AtMidnight ∧ d.Spans start.date finish.date := by
  refine ⟨Instant.isSome_ofIsoDate?_iff, isSome_ofIsoDate?_iff, fun d hd => ?_⟩
  obtain ⟨start, hs⟩ := Option.isSome_iff_exists.1 (WrittenDate.isSome_start? hd.bounded)
  obtain ⟨finish, hf⟩ := Option.isSome_iff_exists.1 (WrittenDate.isSome_finish? hd.bounded)
  have hread := WrittenDate.ofString?_eq_some_iff.2 hd
  refine ⟨start, finish, ?_, ?_, WrittenDate.start_le_finish hs hf,
    WrittenDate.start_eq_finish_iff hs hf, WrittenDate.atMidnight_start? hs,
    WrittenDate.atMidnight_finish? hf, WrittenDate.spans_start?_finish? hs hf⟩
  · rw [Instant.ofIsoDate?, hread, Option.bind_some, hs]
  · rw [ofIsoDate?, hread, Option.map_some, ofWrittenDate, hs, hf]
    rfl

/-- Month 13 of the year before year 0 is January of year 0. -/
theorem resolves_iff_spells_thirteenthMonth :
    WrittenDate.Spells "-0001-13".toList (.month (-1) 13) ∧
      ∃ start finish : Instant,
        (ofIsoDate? .historical "-0001-13").map (fun p => (p.start.instant, p.finish.instant)) =
          some (some start, some finish) ∧
        start.date.IsFirstOf 1 ∧ finish.date.IsFirstOf 2 := by
  have hspells : WrittenDate.Spells "-0001-13".toList (.month (-1) 13) :=
    WrittenDate.ofString?_eq_some_iff.1 (by decide)
  obtain ⟨start, finish, -, hperiod, -, -, -, -, hstart, hfinish⟩ :=
    (resolves_iff_spells .historical "-0001-13").2.2 _ hspells
  refine ⟨hspells, start, finish, ?_, hstart, hfinish⟩
  rw [hperiod]
  rfl

end Period

end Chronomap
