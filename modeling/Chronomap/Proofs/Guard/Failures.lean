import Chronomap.Proofs.Guard.Meaning

/-!
# Guards that fail

A period may lack values.  The guard of a legacy filter compares with `null` then, and never
fails.  The guard of an expression refers to its four variables whatever the period binds, so it
fails on a variable that is not bound, though only if the evaluation comes to it: a side of a
lifespan is compared on the scale that the feature states it on, and the finish is looked at only
if the start is within its limit.

    passes f (constrain filter q p) = .error (.unbound (name q field)),
      if the filter is an expression and f.failsOn? p = some field
    passes f (constrain filter q p) = .ok (f.overlaps p && b),
      otherwise, where passes f filter = .ok b                    (passes_constrain_incomplete)
-/

namespace Chronomap

/-! ## What a feature is compared with -/

namespace Feature

open Chronomap.Filter

/-- The field of a period that a side of the lifespan is compared with. -/
def compared? (f : Feature) (side : Side) : Option Field :=
  (f.scale? side).map fun scale => ⟨side.opposite, scale⟩

/-- The field that a side of the lifespan is compared with, if the period lacks it. -/
def lacking? (f : Feature) (p : Period) (side : Side) : Option Field :=
  (f.compared? side).filter fun field => (p.value? field).isNone

/-- The first field that the period lacks and a comparison of the lifespan comes to: the start
comes first, and the finish only if the start is within its limit. -/
def failsOn? (f : Feature) (p : Period) : Option Field :=
  match f.lacking? p .start with
  | some field => some field
  | none => if f.meets .start (p.limit .start) then f.lacking? p .finish else none

variable {f : Feature} {p : Period}

theorem lacking?_eq_none_iff {side : Side} :
    f.lacking? p side = none ↔
      ∀ field, f.compared? side = some field → (p.value? field).isSome := by
  simp [lacking?, Option.filter_eq_none_iff, Option.isSome_iff_ne_none]

/-- Nothing that a comparison comes to is lacking. -/
theorem failsOn?_eq_none_iff :
    f.failsOn? p = none ↔
      ∀ side field, f.compared? side = some field →
        (side = .finish → f.meets .start (p.limit .start) = true) →
          (p.value? field).isSome := by
  constructor
  · intro h side field hfield hreached
    unfold failsOn? at h
    split at h
    · cases h
    · next hstart =>
      cases side with
      | start => exact lacking?_eq_none_iff.1 hstart field hfield
      | finish =>
        rw [if_pos (hreached rfl)] at h
        exact lacking?_eq_none_iff.1 h field hfield
  · intro h
    have hstart : f.lacking? p .start = none :=
      lacking?_eq_none_iff.2 fun field hfield => h .start field hfield (by intro hside; cases hside)
    unfold failsOn?
    rw [hstart]
    by_cases hmeets : f.meets .start (p.limit .start) = true
    · simp only [hmeets, if_true]
      exact lacking?_eq_none_iff.2 fun field hfield => h .finish field hfield fun _ => hmeets
    · simp [hmeets]

end Feature

namespace Filter

/-! ## The tests of a guard, where not all variables are bound -/

namespace Variable

open Expression

section

variable {f : Feature} {q : Qualifier} {p : Period} {scope : Scope} {side : Side}

theorem guardScope_name (q : Qualifier) (p : Period) (field : Field) :
    guardScope q p (name q field) = p.value? field := by
  rw [guardScope, bindAll_of_nodup nodup_values, get?_values]
  exact Option.or_none

/-- A side is compared if the variable for it is bound. -/
theorem value_clause_of_present (hscope : ∀ field, scope (name q field) = p.value? field)
    (h : f.lacking? p side = none) :
    value f scope (clause q side) = .ok (.bool (f.meets side (p.limit side))) := by
  rw [value_clause_eq, Feature.meets_eq]
  cases hs : f.scale? side with
  | none => rfl
  | some scale =>
    have hpresent := Feature.lacking?_eq_none_iff.1 h ⟨side.opposite, scale⟩ (by
      rw [Feature.compared?, hs, Option.map_some])
    obtain ⟨limit, hlimit⟩ := Option.isSome_iff_exists.1 hpresent
    have hbound := (hscope ⟨side.opposite, scale⟩).trans hlimit
    simp only [value_comparison hbound, Period.limit, hlimit, Option.getD_some]

/-- A comparison with a variable that is not bound fails. -/
theorem value_clause_of_lacking {field : Field}
    (hscope : ∀ field, scope (name q field) = p.value? field)
    (h : f.lacking? p side = some field) :
    value f scope (clause q side) = .error (.unbound (name q field)) := by
  obtain ⟨hcompared, hnone⟩ := Option.filter_eq_some_iff.1 h
  obtain ⟨scale, hs, rfl⟩ := Option.map_eq_some_iff.1 hcompared
  have hunbound := (hscope ⟨side.opposite, scale⟩).trans (Option.isNone_iff_eq_none.1 hnone)
  simp only [value_clause_eq, hs, value_comparison_unbound hunbound]

/-- The tests of a guard and what is behind them, whatever the period lacks. -/
theorem allTrue_tests {b : Bool} {guarded : List Json}
    (hscope : ∀ field, scope (name q field) = p.value? field)
    (h : allTrue f scope guarded = .ok b) :
    allTrue f scope (clause q .start :: clause q .finish :: guarded) =
      match f.failsOn? p with
      | some field => .error (.unbound (name q field))
      | none => .ok (f.overlaps p && b) := by
  rw [allTrue, Feature.failsOn?, Feature.overlaps]
  cases hstart : f.lacking? p .start with
  | some field =>
    rw [value_clause_of_lacking hscope hstart]
    rfl
  | none =>
    rw [value_clause_of_present hscope hstart]
    -- Outside the limit of its start a feature is turned away before its finish is looked at.
    cases hmeets : f.meets .start (p.limit .start) with
    | false => rfl
    | true =>
      show allTrue f scope (clause q .finish :: guarded) = _
      rw [allTrue]
      simp only [if_true, Bool.true_and]
      cases hfinish : f.lacking? p .finish with
      | some field =>
        rw [value_clause_of_lacking hscope hfinish]
        rfl
      | none =>
        rw [value_clause_of_present hscope hfinish]
        cases f.meets .finish (p.limit .finish) with
        | false => rfl
        | true => exact h

end

end Variable

/-! ## Guards of either dialect -/

section

variable {filter : Option Json} {q : Qualifier} {f : Feature} {b : Bool}

/-- An expression that has an outcome has it behind the variables of a guard. -/
theorem allTrue_present (hd : Dialect.ofFilter filter = .expression)
    (h : passes f (filter.getD .null) = .ok b) (scope : Expression.Scope) :
    Expression.allTrue f scope (present filter).toList = .ok b := by
  apply Expression.allTrue_of_empty
  rw [Variable.allTrue_toList]
  cases filter with
  | none => exact h
  | some v =>
    by_cases hnull : v = .null
    · subst hnull
      exact h
    · rw [present_of_ne_null hnull, Option.map_some, Option.getD_some,
        ← passes_expression f hnull (dialect_eq_expression_iff.1 hd)]
      exact h

/-- A guard fails on what its period lacks, and on nothing else: a filter that has an outcome for
a feature has one behind every guard, unless the guard is an expression and comes to a variable
that is not bound. -/
theorem passes_constrain_incomplete (hl : ¬ Literal.IsGuard filter)
    (hv : ¬ Variable.IsGuard q filter) (h : passes f (filter.getD .null) = .ok b) (p : Period) :
    passes f (constrain filter q p) =
        (match Dialect.ofFilter filter, f.failsOn? p with
        | .expression, some field => .error (.unbound (Variable.name q field))
        | _, _ => .ok (f.overlaps p && b)) ∧
      (f.failsOn? p = none ↔
        ∀ side field, f.compared? side = some field →
          (side = .finish → f.meets .start (p.limit .start) = true) →
            (p.value? field).isSome) := by
  refine ⟨?_, Feature.failsOn?_eq_none_iff⟩
  cases hd : Dialect.ofFilter filter with
  | legacy =>
    cases filter with
    | none => cases hd
    | some v =>
      have hguarded : passes f v = .ok b := h
      rw [passes_constrain_of_legacy (dialect_eq_legacy_iff.1 hd) hl, hguarded]
      cases f.overlaps p <;> rfl
  | expression =>
    rw [constrain, hd]
    show passes f (Variable.constrain filter q p) = _
    rw [Variable.constrain_of_not_isGuard hv, Variable.passes_binder,
      Variable.value_binder_values, Variable.tests, Variable.isSatisfied_value_all]
    show Expression.allTrue f (Variable.guardScope q p) _ = _
    rw [Variable.allTrue_tests (Variable.guardScope_name q p) (allTrue_present hd h _)]
    cases f.failsOn? p <;> rfl

end

/-- A year whose end has no decimal year. -/
def endUnnumbered : Period :=
  ⟨⟨none, some 2013.0, some "2013-01-01"⟩, ⟨none, none, some "2014-01-01"⟩⟩

def startedWith1900 : Feature := ⟨none, none, [("start_decdate", .ofFloat 1900.0)]⟩

theorem passes_constrain_incomplete_primaryRoads :
    ¬ Literal.IsGuard (some primaryRoads) ∧ ¬ Variable.IsGuard .standard (some primaryRoads) ∧
      passes (roadSince "2012-06-01") primaryRoads = .ok true ∧
      (roadSince "2012-06-01").failsOn? endUnnumbered = none ∧
      passes (roadSince "2012-06-01") (constrain (some primaryRoads) .standard endUnnumbered) =
        .ok true := by
  have hl : ¬ Literal.IsGuard (some primaryRoads) := by decide
  have hv : ¬ Variable.IsGuard .standard (some primaryRoads) := by decide
  have hroad : passes (roadSince "2012-06-01") primaryRoads = .ok true := rfl
  exact ⟨hl, hv, hroad, rfl, (passes_constrain_incomplete hl hv hroad endUnnumbered).1.trans rfl⟩

/-- Without a filter everything passes, and with a guard for a period that lacks a decimal year a
feature makes the guard fail. -/
theorem passes_constrain_endUnnumbered :
    passes startedWith1900 .null = .ok true ∧ ¬ Literal.IsGuard none ∧
      ¬ Variable.IsGuard .standard none ∧
      passes startedWith1900 (constrain none .standard endUnnumbered) =
        .error (.unbound "mapdate__endDecimalYear") :=
  ⟨rfl, by decide, by decide, rfl⟩

end Filter

end Chronomap
