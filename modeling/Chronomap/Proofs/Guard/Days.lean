import Chronomap.Proofs.Calendar.TextRank
import Chronomap.Proofs.Evaluation.Order
import Chronomap.Proofs.Guard.Agreement

/-!
# ISO dates are compared as days

A feature without decimal years is compared with a period by ISO dates, and these as text.  Where
all years have four digits this is the calendar: the feature starts before the day on which the
period ends and does not end before the day on which the period starts, in either dialect
(`passes_days`).
-/

namespace Chronomap

/-! ## Resolved periods -/

/-- A period that a selection stands for, or the one between two instants. -/
inductive Period.Resolved : Period → Prop
  | selected {numbering : Numbering} {selection : Selection} {p : Period}
      (h : ofSelection? numbering selection = some p) : Resolved p
  | between {numbering : Numbering} {s t : Instant} {p : Period}
      (h : between? numbering s t = some p) : Resolved p

/-- A resolved period consists of what is derived from its two instants. -/
theorem Period.Resolved.eq_ofInstants? {p : Period} (h : p.Resolved) {s t : Option Instant}
    (hstart : p.start.instant = s) (hfinish : p.finish.instant = t) :
    ∃ numbering, p = ofInstants? numbering s t := by
  subst hstart hfinish
  cases h with
  | @selected numbering selection _ h =>
    cases selection with
    | written text =>
      obtain ⟨d, -, rfl⟩ := Option.map_eq_some_iff.1 h
      exact ⟨numbering, rfl⟩
    | exact t =>
      obtain rfl := Option.some.inj h
      exact ⟨numbering, rfl⟩
  | @between numbering s t _ h =>
    unfold between? at h
    split at h
    · obtain rfl := Option.some.inj h
      exact ⟨numbering, rfl⟩
    · cases h

namespace Filter

/-! ## Lifespans in days -/

/-- A feature states the sides of its lifespan, if at all, as ISO dates of the given instants. -/
def StatesDays (f : Feature) (lifespan : Side → Option Instant) : Prop :=
  ∀ side : Side, f.property? (side.property .decimalYear) = none ∧
    f.property? (side.property .isoDate) = (lifespan side).map fun t => .str t.isoDate

theorem holds_lt_isoDate {s t : Instant} (hs : s.date.FourDigitYear)
    (ht : t.date.FourDigitYear) :
    Comparison.lt.holds (.str s.isoDate) (.str t.isoDate) = true ↔
      s.dayNumber < t.dayNumber :=
  (Comparison.holds_str_iff .lt).trans (Instant.isoDate_lt_isoDate_iff hs ht)

theorem holds_ge_isoDate {s t : Instant} (hs : s.date.FourDigitYear)
    (ht : t.date.FourDigitYear) :
    Comparison.ge.holds (.str s.isoDate) (.str t.isoDate) = true ↔
      t.dayNumber ≤ s.dayNumber := by
  have hle : t.isoDate ≤ s.isoDate ↔ t.dayNumber ≤ s.dayNumber := by
    rw [← String.not_lt, Instant.isoDate_lt_isoDate_iff hs ht, Int.not_lt]
  exact (Comparison.holds_str_iff .ge).trans hle

/-- A side in days is within its limit if it compares to the limit, or is not stated. -/
theorem meets_days {f : Feature} {lifespan : Side → Option Instant} (h : StatesDays f lifespan)
    (side : Side) (limit : Scale → Json) :
    f.meets side limit = true ↔
      ∀ t ∈ lifespan side, side.comparison.holds (.str t.isoDate) (limit .isoDate) = true := by
  obtain ⟨hdecimal, hiso⟩ := h side
  unfold Feature.meets
  rw [hdecimal, hiso]
  cases lifespan side <;> simp

/-! ## Periods in days -/

section

variable {f : Feature} {lifespan : Side → Option Instant} {p : Period} {s t : Instant}

/-- A feature overlaps a period exactly if the days do. -/
theorem overlaps_days (hp : p.Resolved) (hstart : p.start.instant = some s)
    (hfinish : p.finish.instant = some t) (hs : s.date.FourDigitYear)
    (ht : t.date.FourDigitYear) (hf : StatesDays f lifespan)
    (hyears : ∀ side, ∀ a ∈ lifespan side, a.date.FourDigitYear) :
    f.overlaps p = true ↔
      (∀ a ∈ lifespan .start, a.dayNumber < t.dayNumber) ∧
        ∀ b ∈ lifespan .finish, s.dayNumber ≤ b.dayNumber := by
  obtain ⟨numbering, rfl⟩ := hp.eq_ofInstants? hstart hfinish
  rw [Feature.overlaps, Bool.and_eq_true, meets_days hf, meets_days hf]
  refine and_congr ?_ ?_
  · exact forall₂_congr fun a ha => holds_lt_isoDate (hyears .start a ha) ht
  · exact forall₂_congr fun b hb => holds_ge_isoDate (hyears .finish b hb) hs

/-- Either guard of no filter lets through the features whose days overlap those of the period. -/
theorem passes_days (hp : p.Resolved) (hstart : p.start.instant = some s)
    (hfinish : p.finish.instant = some t) (hs : s.date.FourDigitYear)
    (ht : t.date.FourDigitYear) (hf : StatesDays f lifespan)
    (hyears : ∀ side, ∀ a ∈ lifespan side, a.date.FourDigitYear) :
    ∃ verdict, passes f (Literal.constrain none p) = .ok verdict ∧
      (∀ q, passes f (Variable.constrain none q p) = .ok verdict) ∧
      (verdict = true ↔ (∀ a ∈ lifespan .start, a.dayNumber < t.dayNumber) ∧
        ∀ b ∈ lifespan .finish, s.dayNumber ≤ b.dayNumber) := by
  have hanswers : Answers f none true := rfl
  have hl : ¬ Literal.IsGuard none := by decide
  have hcomplete : p.Complete := by
    obtain ⟨numbering, rfl⟩ := hp.eq_ofInstants? hstart hfinish
    exact Period.complete_ofInstants? numbering rfl rfl
  refine ⟨f.overlaps p && true, passes_literal hanswers hl p, fun q => ?_, ?_⟩
  · have hv : ¬ Variable.IsGuard q none := by
      rintro ⟨b, hb, -⟩
      cases hb
    exact passes_variable hanswers hv hcomplete
  · rw [Bool.and_true]
    exact overlaps_days hp hstart hfinish hs ht hf hyears

end

def newYear2013 : Instant := ⟨1356998400, 0, by decide, by decide⟩

def newYear2014 : Instant := ⟨1388534400, 0, by decide, by decide⟩

def lastOf2013 : Instant := ⟨1388534399, 0, by decide, by decide⟩

/-- A feature that starts on the last day of the year and ends on the first one. -/
def outermostDays : Feature :=
  ⟨none, none, [("start_date", .str "2013-12-31"), ("end_date", .str "2013-01-01")]⟩

def outermostLifespan : Side → Option Instant
  | .start => some lastOf2013
  | .finish => some newYear2013

theorem passes_days_outermost :
    (Period.ofYear 2013).Resolved ∧ (Period.ofYear 2013).start.instant = some newYear2013 ∧
      (Period.ofYear 2013).finish.instant = some newYear2014 ∧
      newYear2013.date.FourDigitYear ∧ newYear2014.date.FourDigitYear ∧
      StatesDays outermostDays outermostLifespan ∧
      (∀ side, ∀ a ∈ outermostLifespan side, a.date.FourDigitYear) ∧
      passes outermostDays (Literal.constrain none (.ofYear 2013)) = .ok true ∧
      passes outermostDays (Variable.constrain none .standard (.ofYear 2013)) = .ok true := by
  have hwritten : Period.ofSelection? .astronomical (.written "2013") =
      some (Period.ofYear 2013) := rfl
  have hstart : (Period.ofYear 2013).start.instant = some newYear2013 := by decide
  have hfinish : (Period.ofYear 2013).finish.instant = some newYear2014 := by decide
  have hs : newYear2013.date.FourDigitYear := ⟨by decide, by decide⟩
  have ht : newYear2014.date.FourDigitYear := ⟨by decide, by decide⟩
  have hf : StatesDays outermostDays outermostLifespan := by
    intro side
    cases side <;> exact ⟨rfl, rfl⟩
  have hyears : ∀ side, ∀ a ∈ outermostLifespan side, a.date.FourDigitYear := by
    intro side a ha
    cases side <;> obtain rfl := Option.some.inj ha <;> exact ⟨by decide, by decide⟩
  obtain ⟨verdict, hliteral, hvariable, hverdict⟩ :=
    passes_days (.selected hwritten) hstart hfinish hs ht hf hyears
  obtain rfl : verdict = true := by
    refine hverdict.2 ⟨?_, ?_⟩
    · rintro a ⟨⟩
      decide
    · rintro b ⟨⟩
      decide
  exact ⟨.selected hwritten, hstart, hfinish, hs, ht, hf, hyears, hliteral,
    hvariable .standard⟩

end Filter

end Chronomap
