import Chronomap.Proofs.Calendar.Resolutions
import Chronomap.Proofs.Calendar.TextRank
import Chronomap.Proofs.Evaluation.Order
import Chronomap.Proofs.Guard.Days
import Chronomap.Proofs.Guard.Towers

/-!
# Widening a date

A guard of no filter lets through the features that overlap its period, and a feature that states
ISO dates overlaps it by the text order of the four dates.  One period's guard lets through all the
features of another's exactly if the text order takes its ends to be further out:

    Widens d q p p' ↔ t ≤ t' ∧ s' ≤ s      (widens_iff)

with the ISO dates `s`, `t` of the ends of `p` and `s'`, `t'` of those of `p'`.  A month finishes
later than each of its days and a year later than each of its months, but where that is in another
year the text order can put it before them (`widens_resolutions`).
-/

namespace Chronomap.Filter

/-! ## Features that state days -/

/-- The guard of no filter lets through exactly the features that overlap the period. -/
theorem passes_guardIn_none (f : Feature) (dialect : Dialect) (q : Qualifier) {p : Period}
    (hp : p.Complete) : passes f (guardIn dialect none q p) = .ok (f.overlaps p) := by
  have hanswers : Answers f none true := rfl
  rw [← Bool.and_true (f.overlaps p)]
  cases dialect with
  | legacy => exact passes_literal hanswers (by decide) p
  | expression =>
    refine passes_variable hanswers ?_ hp
    rintro ⟨b, hb, -⟩
    cases hb

section

variable {f : Feature} {lifespan : Side → Option Instant} {s t : Instant}

/-- Features that state days overlap a period if their texts do. -/
theorem overlaps_isoDates (hf : StatesDays f lifespan) (numbering : Numbering) :
    f.overlaps (.ofInstants? numbering (some s) (some t)) = true ↔
      (∀ a ∈ lifespan .start, a.isoDate < t.isoDate) ∧
        ∀ b ∈ lifespan .finish, s.isoDate ≤ b.isoDate := by
  rw [Feature.overlaps, Bool.and_eq_true, meets_days hf, meets_days hf]
  exact and_congr (forall₂_congr fun _ _ => Comparison.holds_str_iff .lt)
    (forall₂_congr fun _ _ => Comparison.holds_str_iff .ge)

end

/-- The lifespan of which one side is stated. -/
def only (side : Side) (t : Instant) : Side → Option Instant :=
  fun other => if other = side then some t else none

def sideProperty (side : Side) (day : Option Instant) : Json.Members :=
  (day.map fun t => (side.property .isoDate, .str t.isoDate)).toList

/-- A feature that states a lifespan in days and nothing else. -/
def lifespanFeature (lifespan : Side → Option Instant) : Feature :=
  ⟨none, none, sideProperty .start (lifespan .start) ++ sideProperty .finish (lifespan .finish)⟩

theorem statesDays_lifespanFeature (lifespan : Side → Option Instant) :
    StatesDays (lifespanFeature lifespan) lifespan := by
  intro side
  unfold lifespanFeature
  cases hs : lifespan .start <;> cases hf : lifespan .finish <;> cases side <;>
    rw [‹lifespan _ = _›] <;> exact ⟨rfl, rfl⟩

/-! ## Wider periods -/

/-- Whether each feature that states days and passes the guard of one period also passes that of
another. -/
def Widens (dialect : Dialect) (q : Qualifier) (p p' : Period) : Prop :=
  ∀ f lifespan, StatesDays f lifespan → passes f (guardIn dialect none q p) = .ok true →
    passes f (guardIn dialect none q p') = .ok true

/-- A period is as wide as another if the texts of its ends are as far out. -/
theorem widens_iff (dialect : Dialect) (q : Qualifier) (numbering : Numbering)
    (s t s' t' : Instant) :
    Widens dialect q (.ofInstants? numbering (some s) (some t))
        (.ofInstants? numbering (some s') (some t')) ↔
      t.isoDate ≤ t'.isoDate ∧ s'.isoDate ≤ s.isoDate := by
  have hpass : ∀ f lifespan, StatesDays f lifespan → ∀ s t,
      (passes f (guardIn dialect none q (.ofInstants? numbering (some s) (some t))) = .ok true ↔
        (∀ a ∈ lifespan .start, a.isoDate < t.isoDate) ∧
          ∀ b ∈ lifespan .finish, s.isoDate ≤ b.isoDate) := by
    intro f lifespan hf s t
    rw [passes_guardIn_none f dialect q (Period.complete_ofInstants? numbering rfl rfl),
      ← overlaps_isoDates hf numbering, Except.ok.injEq]
  constructor
  · intro h
    -- A feature that starts where the second period finishes, and one that ends where the first
    -- period starts.
    refine ⟨?_, ?_⟩
    · have hf := statesDays_lifespanFeature (only .start t')
      rw [← String.not_lt]
      intro hlt
      have hp := (hpass _ _ hf s t).2 ⟨by rintro a ⟨⟩; exact hlt, by rintro b ⟨⟩⟩
      have hp' := (hpass _ _ hf s' t').1 (h _ _ hf hp)
      exact String.lt_irrefl _ (hp'.1 t' rfl)
    · have hf := statesDays_lifespanFeature (only .finish s)
      have hp := (hpass _ _ hf s t).2 ⟨by rintro a ⟨⟩, by rintro b ⟨⟩; exact String.le_refl _⟩
      exact ((hpass _ _ hf s' t').1 (h _ _ hf hp)).2 s rfl
  · rintro ⟨hfinish, hstart⟩ f lifespan hf hp
    obtain ⟨hs, ht⟩ := (hpass f lifespan hf s t).1 hp
    refine (hpass f lifespan hf s' t').2 ⟨fun a ha => ?_, fun b hb => ?_⟩
    · rw [← String.not_le]
      exact fun hle => String.not_le.2 (hs a ha) (String.le_trans hfinish hle)
    · exact String.le_trans hstart (ht b hb)

/-! ## Resolutions -/

/-- A day comes before another as text: its year does, or its month and day in the same year do. -/
def TextBefore (a b : Int × Nat × Nat) : Prop :=
  textRank a.1 < textRank b.1 ∨ a.1 = b.1 ∧ (a.2.1 < b.2.1 ∨ a.2.1 = b.2.1 ∧ a.2.2 < b.2.2)

theorem isoDate_le_iff {s t : Instant} :
    s.isoDate ≤ t.isoDate ↔ ¬ TextBefore t.date.parts s.date.parts := by
  rw [← String.not_lt, Instant.isoDate_lt_iff]
  rfl

/-- A date is as wide as another if its first day and the day that it finishes with are as far
out. -/
theorem widens_ofWrittenDate_iff (dialect : Dialect) (q : Qualifier) (numbering : Numbering)
    {d d' : WrittenDate} (hd : d.Bounded) (hd' : d'.Bounded) (hc : d.InCalendar)
    (hc' : d'.InCalendar) :
    Widens dialect q (.ofWrittenDate numbering d) (.ofWrittenDate numbering d') ↔
      ¬ TextBefore d'.past d.past ∧ ¬ TextBefore d.first d'.first := by
  obtain ⟨s, hs⟩ := Option.isSome_iff_exists.1 (WrittenDate.isSome_start? hd)
  obtain ⟨t, ht⟩ := Option.isSome_iff_exists.1 (WrittenDate.isSome_finish? hd)
  obtain ⟨s', hs'⟩ := Option.isSome_iff_exists.1 (WrittenDate.isSome_start? hd')
  obtain ⟨t', ht'⟩ := Option.isSome_iff_exists.1 (WrittenDate.isSome_finish? hd')
  rw [Period.ofWrittenDate, Period.ofWrittenDate, hs, ht, hs', ht', widens_iff, isoDate_le_iff,
    isoDate_le_iff, WrittenDate.parts_of_start? hc hs, WrittenDate.parts_of_finish? hc ht,
    WrittenDate.parts_of_start? hc' hs', WrittenDate.parts_of_finish? hc' ht']

section

variable {y : Int} {m d : Nat} (hy : -9999 ≤ y ∧ y ≤ 9999) (hm : 1 ≤ m ∧ m ≤ 12) (hd : 1 ≤ d)

include hy hm hd

/-- A month finishes in another year than its days only if it is December. -/
theorem textBefore_month_iff :
    (¬ TextBefore (WrittenDate.month y m).past (WrittenDate.day y m d).past ∧
      ¬ TextBefore (WrittenDate.day y m d).first (WrittenDate.month y m).first) ↔
      m ≠ 12 ∨ -1 ≤ y ∧ y ≤ 9998 := by
  have hnext := textRank_succ_lt_iff hy
  by_cases hdecember : m = 12
  · simp only [TextBefore, WrittenDate.past, WrittenDate.first, if_pos hdecember]
    omega
  · simp only [TextBefore, WrittenDate.past, WrittenDate.first, if_neg hdecember]
    omega

omit hd

/-- A year finishes in another year than its months, but for December. -/
theorem textBefore_year_iff :
    (¬ TextBefore (WrittenDate.year y).past (WrittenDate.month y m).past ∧
      ¬ TextBefore (WrittenDate.month y m).first (WrittenDate.year y).first) ↔
      m = 12 ∨ -1 ≤ y ∧ y ≤ 9998 := by
  have hnext := textRank_succ_lt_iff hy
  by_cases hdecember : m = 12
  · simp only [TextBefore, WrittenDate.past, WrittenDate.first, if_pos hdecember]
    omega
  · simp only [TextBefore, WrittenDate.past, WrittenDate.first, if_neg hdecember]
    omega

end

/-- The guard of a month lets through all that the guard of one of its days does, and the guard of
a year all that the guard of one of its months does, exactly if the texts of dates do not go back
where one of the two finishes in the next year and the other does not. -/
theorem widens_resolutions {year month day : String} (hmonth : month.length = 2)
    (hday : day.length = 2) {y : Int} {m d : Nat}
    (h : WrittenDate.ofString? (year ++ "-" ++ month ++ "-" ++ day) = some (.day y m d))
    (hm : 1 ≤ m ∧ m ≤ 12) (hd : 1 ≤ d ∧ d ≤ monthLength y m) (numbering : Numbering)
    (dialect : Dialect) (q : Qualifier) :
    ∃ ofDay ofMonth ofYear,
      Period.ofSelection? numbering (.written (year ++ "-" ++ month ++ "-" ++ day)) =
        some ofDay ∧
      Period.ofSelection? numbering (.written (year ++ "-" ++ month)) = some ofMonth ∧
      Period.ofSelection? numbering (.written year) = some ofYear ∧
      (Widens dialect q ofDay ofMonth ↔ m ≠ 12 ∨ -1 ≤ y ∧ y ≤ 9998) ∧
      (Widens dialect q ofMonth ofYear ↔ m = 12 ∨ -1 ≤ y ∧ y ≤ 9998) := by
  obtain ⟨hofMonth, hofYear⟩ := WrittenDate.ofString?_resolutions hmonth hday h
  have hbounded := WrittenDate.bounded_of_ofString? h
  have hboundedMonth := WrittenDate.bounded_of_ofString? hofMonth
  have hboundedYear := WrittenDate.bounded_of_ofString? hofYear
  refine ⟨_, _, _, congrArg (Option.map (Period.ofWrittenDate numbering)) h,
    congrArg (Option.map (Period.ofWrittenDate numbering)) hofMonth,
    congrArg (Option.map (Period.ofWrittenDate numbering)) hofYear, ?_, ?_⟩
  · rw [widens_ofWrittenDate_iff dialect q numbering hbounded hboundedMonth ⟨hm, hd⟩ hm,
      textBefore_month_iff hboundedYear hm hd.1]
  · rw [widens_ofWrittenDate_iff dialect q numbering hboundedMonth hboundedYear hm trivial,
      textBefore_year_iff hboundedYear hm]

theorem widens_resolutions_idesOfMarch :
    ∃ ofDay ofMonth ofYear,
      Period.ofSelection? .astronomical (.written "-0044-03-15") = some ofDay ∧
      Period.ofSelection? .astronomical (.written "-0044-03") = some ofMonth ∧
      Period.ofSelection? .astronomical (.written "-0044") = some ofYear ∧
      Widens .expression .standard ofDay ofMonth ∧
      ¬ Widens .expression .standard ofMonth ofYear := by
  have h : WrittenDate.ofString? ("-0044" ++ "-" ++ "03" ++ "-" ++ "15") =
      some (.day (-44) 3 15) := by decide
  obtain ⟨ofDay, ofMonth, ofYear, hday, hmonth, hyear, hmonthly, hyearly⟩ :=
    widens_resolutions (by decide) (by decide) h (by decide) (by decide) .astronomical
      .expression .standard
  exact ⟨ofDay, ofMonth, ofYear, hday, hmonth, hyear, hmonthly.2 (by decide),
    mt hyearly.1 (by decide)⟩

def december9999 : Instant := ⟨253399622400, 0, by decide, by decide⟩

theorem december_hides_startedInDecember :
    Period.ofSelection? .astronomical (.written "9999-12-15") =
        some (.ofWrittenDate .astronomical (.day 9999 12 15)) ∧
      Period.ofSelection? .astronomical (.written "9999-12") =
        some (.ofWrittenDate .astronomical (.month 9999 12)) ∧
      StatesDays ⟨none, none, [("start_date", .str "9999-12-01")]⟩ (only .start december9999) ∧
      ∀ dialect,
        passes ⟨none, none, [("start_date", .str "9999-12-01")]⟩
            (guardIn dialect none .standard (.ofWrittenDate .astronomical (.day 9999 12 15))) =
          .ok true ∧
        passes ⟨none, none, [("start_date", .str "9999-12-01")]⟩
            (guardIn dialect none .standard (.ofWrittenDate .astronomical (.month 9999 12))) =
          .ok false := by
  refine ⟨rfl, rfl, ?_, ?_⟩
  · intro side
    cases side <;> exact ⟨rfl, rfl⟩
  · intro dialect
    have hday : (WrittenDate.day 9999 12 15).Bounded := ⟨by decide, by decide⟩
    have hmonth : (WrittenDate.month 9999 12).Bounded := ⟨by decide, by decide⟩
    rw [passes_guardIn_none _ _ _ (Period.complete_ofWrittenDate _ hday),
      passes_guardIn_none _ _ _ (Period.complete_ofWrittenDate _ hmonth)]
    exact ⟨congrArg Except.ok (by decide), congrArg Except.ok (by decide)⟩

end Chronomap.Filter
