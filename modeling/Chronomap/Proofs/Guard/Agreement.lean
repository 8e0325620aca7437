import Chronomap.Proofs.Guard.Meaning
import Chronomap.Proofs.Guard.Repetition

/-!
# The dialects agree

A filter that means the same in either dialect may be guarded in either dialect: the tests of
both guards are written differently and evaluated differently, and a feature passes both or none.

    Literal.constrain filter p is legacy, Variable.constrain filter q p never is
    passes f (Literal.constrain filter p) = passes f (Variable.constrain filter q p)
                                                              (passes_either_dialect)

The period has to be complete, but a decimal year that is no number, and so `null` in the guards,
is a value like any other.
-/

namespace Chronomap.Filter

/-- A feature has the given answer from a filter in whichever dialect the filter is read; where
there is no filter, every feature passes. -/
def Answers (f : Feature) (filter : Option Json) (b : Bool) : Prop :=
  match present filter with
  | none => b = true
  | some v =>
    Legacy.passes f v = .ok b ∧ (Expression.value f .empty v).map Expression.isSatisfied = .ok b

section

variable {f : Feature} {filter : Option Json} {b : Bool}

theorem Answers.legacy (h : Answers f filter b) :
    ((present filter).map (Legacy.passes f)).getD (.ok true) = .ok b := by
  unfold Answers at h
  split at h
  · next hnone => rw [hnone, h, Option.map_none, Option.getD_none]
  · next v hsome => rw [hsome, Option.map_some, Option.getD_some, h.1]

theorem Answers.expression (h : Answers f filter b) :
    Expression.allTrue f .empty (present filter).toList = .ok b := by
  unfold Answers at h
  rw [Variable.allTrue_toList]
  split at h
  · next hnone => rw [hnone, h, Option.map_none, Option.getD_none]
  · next v hsome => rw [hsome, Option.map_some, Option.getD_some, h.2]

/-- The literals of a guard are compared as the period's values are. -/
theorem passes_literal (h : Answers f filter b) (hl : ¬ Literal.IsGuard filter) (p : Period) :
    passes f (Literal.constrain filter p) = .ok (f.overlaps p && b) := by
  rw [Literal.constrain_of_not_isGuard hl, Literal.passes_unset, h.legacy]
  cases f.overlaps p <;> rfl

/-- The variables of a guard do not change what the filter behind them means. -/
theorem passes_variable (h : Answers f filter b) {q : Qualifier}
    (hv : ¬ Variable.IsGuard q filter) {p : Period} (hp : p.Complete) :
    passes f (Variable.constrain filter q p) = .ok (f.overlaps p && b) := by
  rw [Variable.constrain_of_not_isGuard hv, Variable.passes_fresh f q hp,
    ← Variable.allTrue_toList, Expression.allTrue_of_empty h.expression]
  cases f.overlaps p <;> rfl

end

/-- Guards of the two dialects are told apart, and features pass them alike. -/
theorem passes_either_dialect (filter : Option Json) (q : Qualifier) (p : Period) :
    isLegacy (Literal.constrain filter p) = true ∧
      isLegacy (Variable.constrain filter q p) = false ∧
      (p.Complete → ¬ Literal.IsGuard filter → ¬ Variable.IsGuard q filter →
        ∀ f b, Answers f filter b →
          passes f (Literal.constrain filter p) = .ok (f.overlaps p && b) ∧
            passes f (Variable.constrain filter q p) = .ok (f.overlaps p && b)) := by
  refine ⟨dialect_eq_legacy_iff.1 (dialect_literal filter p),
    dialect_eq_expression_iff.1 (dialect_variable filter q p), ?_⟩
  intro hp hl hv f b h
  exact ⟨passes_literal h hl p, passes_variable h hv hp⟩

/-- A period whose start has a decimal year that is not a number. -/
def unnumbered : Period :=
  ⟨⟨none, some (0.0 / 0.0), some "2013-01-01"⟩, ⟨none, some 2014.0, some "2014-01-01"⟩⟩

/-- A feature that ended in the middle of 2013 by its decimal year. -/
def endedIn2013 : Feature :=
  ⟨none, none, [("class", .str "primary"), ("end_decdate", .ofFloat 2013.5)]⟩

theorem passes_either_dialect_unnumbered :
    unnumbered.Complete ∧ ¬ Literal.IsGuard (some (call "has" [.str "class"])) ∧
      ¬ Variable.IsGuard .standard (some (call "has" [.str "class"])) ∧
      Answers endedIn2013 (some (call "has" [.str "class"])) true ∧
      passes endedIn2013 (Literal.constrain (some (call "has" [.str "class"])) unnumbered) =
        .ok false ∧
      passes endedIn2013
        (Variable.constrain (some (call "has" [.str "class"])) .standard unnumbered) =
          .ok false := by
  have hp : unnumbered.Complete := by
    rintro ⟨side, scale⟩
    cases side <;> cases scale <;> rfl
  have hl : ¬ Literal.IsGuard (some (call "has" [.str "class"])) := by decide
  have hv : ¬ Variable.IsGuard .standard (some (call "has" [.str "class"])) := by decide
  have h : Answers endedIn2013 (some (call "has" [.str "class"])) true := ⟨rfl, rfl⟩
  -- No decimal year compares with what is not a number.
  have hout : endedIn2013.overlaps unnumbered = false := by decide
  have hboth := (passes_either_dialect (some (call "has" [.str "class"])) .standard
    unnumbered).2.2 hp hl hv endedIn2013 true h
  rw [hout] at hboth
  exact ⟨hp, hl, hv, h, hboth⟩

end Chronomap.Filter
