import Chronomap.Filter.Evaluation
import Chronomap.Proofs.Guard.Variables

/-!
# What the tests of a guard mean

A feature overlaps a period if each side of its lifespan is within the limit that the opposite
side of the period sets.  The tests that a guard writes compute this in either dialect:

    Legacy.passes f (Literal.clause side limits) = .ok (f.meets side limits.at)
                                                                (Literal.passes_clause)
    Expression.value f scope (Variable.clause q side) = .ok (.bool (f.meets side limit)),
      if scope binds the variables of the side to the limits    (Variable.value_clause)

In an expression only one of the three tests counts, the one on the scale that the feature states
the side on; where the side is not stated, no variable is looked up (`Variable.value_clause_eq`).
-/

namespace Chronomap

/-! ## Overlap -/

/-- The limit that a period sets to one side of a lifespan; `null` if the period has none. -/
def Period.limit (p : Period) (side : Filter.Side) (scale : Filter.Scale) : Json :=
  (p.value? ⟨side.opposite, scale⟩).getD .null

/-- Whether a side of a feature's lifespan is within its limit.  The decimal year counts if the
feature has one, and the ISO date otherwise; a side that is not stated is within every limit. -/
def Feature.meets (f : Feature) (side : Filter.Side) (limit : Filter.Scale → Json) : Bool :=
  match f.property? (side.property .decimalYear) with
  | some v => side.comparison.holds v (limit .decimalYear)
  | none =>
    match f.property? (side.property .isoDate) with
    | some v => side.comparison.holds v (limit .isoDate)
    | none => true

/-- The scale on which a feature states a side of its lifespan, if it does: in decimal years if
it has them, and in ISO dates otherwise. -/
def Feature.scale? (f : Feature) (side : Filter.Side) : Option Filter.Scale :=
  if (f.property? (side.property .decimalYear)).isSome then some .decimalYear
  else if (f.property? (side.property .isoDate)).isSome then some .isoDate
  else none

theorem Feature.meets_eq (f : Feature) (side : Filter.Side) (limit : Filter.Scale → Json) :
    f.meets side limit =
      match f.scale? side with
      | some scale =>
        side.comparison.holds ((f.property? (side.property scale)).getD .null) (limit scale)
      | none => true := by
  unfold meets scale?
  cases hd : f.property? (side.property .decimalYear) with
  | some v => simp [hd]
  | none =>
    cases hi : f.property? (side.property .isoDate) with
    | some v => simp [hi]
    | none => simp

def Feature.overlaps (f : Feature) (p : Period) : Bool :=
  f.meets .start (p.limit .start) && f.meets .finish (p.limit .finish)

namespace Filter

/-! ## The tests of legacy guards -/

section

variable {f : Feature}

/-- The properties of a lifespan are not among the keys with a meaning of their own. -/
theorem key?_property (side : Side) (scale : Scale) :
    f.key? (side.property scale) = f.property? (side.property scale) := by
  have h : side.property scale ≠ "$type" ∧ side.property scale ≠ "$id" := by
    cases side <;> cases scale <;> decide
  rw [Feature.key?, if_neg h.1, if_neg h.2]

namespace Legacy

/-- Tests without a failure, evaluated until the first one that fails to hold. -/
theorem passes_all_of_ok {xs : List Json} {bs : List Bool}
    (h : xs.map (passes f) = bs.map .ok) : passes f (call "all" xs) = .ok (bs.all id) := by
  show allPass f xs = .ok (bs.all id)
  induction xs generalizing bs with
  | nil =>
    obtain rfl := List.map_eq_nil_iff.1 h.symm
    rfl
  | cons x xs ih =>
    cases bs with
    | nil => cases h
    | cons b bs =>
      obtain ⟨hx, hxs⟩ := List.cons.inj h
      rw [allPass, hx, List.all_cons]
      cases b with
      | false => rfl
      | true => exact ih hxs

/-- Tests without a failure, evaluated until the first one that holds. -/
theorem passes_any_of_ok {xs : List Json} {bs : List Bool}
    (h : xs.map (passes f) = bs.map .ok) : passes f (call "any" xs) = .ok (bs.any id) := by
  show anyPass f xs = .ok (bs.any id)
  induction xs generalizing bs with
  | nil =>
    obtain rfl := List.map_eq_nil_iff.1 h.symm
    rfl
  | cons x xs ih =>
    cases bs with
    | nil => cases h
    | cons b bs =>
      obtain ⟨hx, hxs⟩ := List.cons.inj h
      rw [anyPass, hx, List.any_cons]
      cases b with
      | true => rfl
      | false => exact ih hxs

theorem passes_has (side : Side) (scale : Scale) :
    passes f (call "has" [.str (side.property scale)]) =
      .ok (f.property? (side.property scale)).isSome := by
  rw [← key?_property]
  rfl

theorem passes_lacks (side : Side) (scale : Scale) :
    passes f (call "!has" [.str (side.property scale)]) =
      .ok (f.property? (side.property scale)).isNone := by
  rw [← key?_property]
  rfl

theorem passes_compare (c : Comparison) (args : List Json) :
    passes f (call c.name args) = .ok (compares f c args) := by
  rw [call, passes, Operator.ofName?_name]

end Legacy

namespace Literal

def Limits.at (limits : Limits) : Scale → Json
  | .decimalYear => limits.decimalYear
  | .isoDate => limits.isoDate

theorem compares_property (side : Side) (scale : Scale) (l v : Json)
    (h : f.property? (side.property scale) = some v) :
    Legacy.compares f side.comparison [.str (side.property scale), l] =
      side.comparison.holds v l := by
  rw [← key?_property] at h
  simp only [Legacy.compares, Legacy.lookup?, h]
  rfl

/-- The three tests of a clause in terms of the tests on either scale, which count only for a
property that is there. -/
theorem tests_eq_meets (f : Feature) (side : Side) (limit : Scale → Json)
    (within : Scale → Bool)
    (h : ∀ scale v, f.property? (side.property scale) = some v →
      within scale = side.comparison.holds v (limit scale)) :
    ([[(f.property? (side.property .decimalYear)).isSome, within .decimalYear].all id,
      [(f.property? (side.property .decimalYear)).isNone,
        (f.property? (side.property .isoDate)).isSome, within .isoDate].all id,
      [(f.property? (side.property .decimalYear)).isNone,
        (f.property? (side.property .isoDate)).isNone].all id].any id) = f.meets side limit := by
  unfold Feature.meets
  cases hd : f.property? (side.property .decimalYear) with
  | some v => simp [h .decimalYear v hd]
  | none =>
    cases hi : f.property? (side.property .isoDate) with
    | some v => simp [h .isoDate v hi]
    | none => simp

theorem passes_clause (f : Feature) (side : Side) (limits : Limits) :
    Legacy.passes f (clause side limits) = .ok (f.meets side limits.at) := by
  rw [← tests_eq_meets f side limits.at
    (fun scale => Legacy.compares f side.comparison [.str (side.property scale), limits.at scale])
    (fun scale v => compares_property side scale (limits.at scale) v), clause]
  refine Legacy.passes_any_of_ok ?_
  simp only [List.map_cons, List.map_nil, List.cons.injEq, and_true]
  refine ⟨Legacy.passes_all_of_ok ?_, Legacy.passes_all_of_ok ?_, Legacy.passes_all_of_ok ?_⟩
  · simp [Legacy.passes_has, Legacy.passes_compare, Limits.at]
  · simp [Legacy.passes_has, Legacy.passes_lacks, Legacy.passes_compare, Limits.at]
  · simp [Legacy.passes_lacks]

end Literal

end

/-! ## The tests of guards of expressions -/

namespace Expression

variable {f : Feature} {scope : Scope} {x : Json} {xs : List Json}

/-- An expression whose value, if it has one, is a truth value. -/
def IsTest (f : Feature) (scope : Scope) (x : Json) : Prop :=
  (∃ b, value f scope x = .ok (.bool b)) ∨ ∃ e, value f scope x = .error e

theorem value_all (f : Feature) (scope : Scope) (xs : List Json) :
    value f scope (call "all" xs) = (allTrue f scope xs).map .bool := by
  show (do return Json.bool (← allTrue f scope xs)) = _
  cases allTrue f scope xs <;> rfl

theorem value_any (f : Feature) (scope : Scope) (xs : List Json) :
    value f scope (call "any" xs) = (anyTrue f scope xs).map .bool := by
  show (do return Json.bool (← anyTrue f scope xs)) = _
  cases anyTrue f scope xs <;> rfl

theorem value_all_cons {b : Bool} (h : value f scope x = .ok (.bool b)) :
    value f scope (call "all" (x :: xs)) =
      if b then value f scope (call "all" xs) else .ok (.bool false) := by
  rw [value_all, value_all, allTrue, h]
  cases b <;> rfl

theorem value_all_singleton (h : IsTest f scope x) :
    value f scope (call "all" [x]) = value f scope x := by
  rcases h with ⟨b, hb⟩ | ⟨e, he⟩
  · rw [value_all_cons hb, hb]
    cases b <;> rfl
  · rw [value_all, allTrue, he]
    rfl

theorem value_any_cons {b : Bool} (h : value f scope x = .ok (.bool b)) :
    value f scope (call "any" (x :: xs)) =
      if b then .ok (.bool true) else value f scope (call "any" xs) := by
  rw [value_any, value_any, anyTrue, h]
  cases b <;> rfl

/-- Behind the one test that counts all others are false. -/
theorem value_any_of_false (h : IsTest f scope x)
    (hxs : ∀ y ∈ xs, value f scope y = .ok (.bool false)) :
    value f scope (call "any" (x :: xs)) = value f scope x := by
  have hrest : value f scope (call "any" xs) = .ok (.bool false) := by
    induction xs with
    | nil => rfl
    | cons y ys ih =>
      rw [value_any_cons (hxs y List.mem_cons_self)]
      exact ih fun z hz => hxs z (List.mem_cons_of_mem y hz)
  rcases h with ⟨b, hb⟩ | ⟨e, he⟩
  · rw [value_any_cons hb, hrest, hb]
    cases b <;> rfl
  · rw [value_any, anyTrue, he]
    rfl

theorem value_has (key : String) :
    value f scope (call "has" [.str key]) = .ok (.bool (f.property? key).isSome) := rfl

theorem value_lacks (key : String) :
    value f scope (call "!" [call "has" [.str key]]) = .ok (.bool (f.property? key).isNone) := by
  show (Except.ok (Json.bool !(f.property? key).isSome) : Except Failure Json) = _
  cases f.property? key <;> rfl

theorem value_var (name : String) (v : Json) (h : scope name = some v) :
    value f scope (call "var" [.str name]) = .ok v := by
  show (match scope name with
    | some v => Except.ok v
    | none => Except.error (Failure.unbound name)) = _
  rw [h]

theorem value_var_unbound (name : String) (h : scope name = none) :
    value f scope (call "var" [.str name]) = .error (.unbound name) := by
  show (match scope name with
    | some v => Except.ok v
    | none => Except.error (Failure.unbound name)) = _
  rw [h]

theorem value_compare {a b v w : Json} (c : Comparison) (ha : value f scope a = .ok v)
    (hb : value f scope b = .ok w) :
    value f scope (call c.name [a, b]) = .ok (.bool (c.holds v w)) := by
  rw [call, value, Operator.ofName?_name]
  simp only [first, second, ha, hb]
  rfl

theorem value_compare_error {a b v : Json} {e : Failure} (c : Comparison)
    (ha : value f scope a = .ok v) (hb : value f scope b = .error e) :
    value f scope (call c.name [a, b]) = .error e := by
  rw [call, value, Operator.ofName?_name]
  simp only [first, second, ha, hb]
  rfl

end Expression

namespace Variable

open Expression

/-- The comparison of a property with the variable on its scale. -/
def comparison (q : Qualifier) (side : Side) (scale : Scale) : Json :=
  call side.comparison.name
    [call "get" [.str (side.property scale)],
      call "var" [.str (name q ⟨side.opposite, scale⟩)]]

section

variable {f : Feature} {q : Qualifier} {scope : Scope} {side : Side} {scale : Scale}

theorem value_comparison {limit : Json}
    (h : scope (name q ⟨side.opposite, scale⟩) = some limit) :
    value f scope (comparison q side scale) =
      .ok (.bool (side.comparison.holds ((f.property? (side.property scale)).getD .null) limit)) :=
  value_compare side.comparison rfl (value_var _ _ h)

theorem value_comparison_unbound (h : scope (name q ⟨side.opposite, scale⟩) = none) :
    value f scope (comparison q side scale) =
      .error (.unbound (name q ⟨side.opposite, scale⟩)) :=
  value_compare_error side.comparison rfl (value_var_unbound _ h)

theorem isTest_comparison (f : Feature) (scope : Scope) (q : Qualifier) (side : Side)
    (scale : Scale) : IsTest f scope (comparison q side scale) := by
  cases h : scope (name q ⟨side.opposite, scale⟩) with
  | some limit => exact .inl ⟨_, value_comparison h⟩
  | none => exact .inr ⟨_, value_comparison_unbound h⟩

def byDecimalYear (q : Qualifier) (side : Side) : Json :=
  call "all" [call "has" [.str (side.property .decimalYear)], comparison q side .decimalYear]

def byIsoDate (q : Qualifier) (side : Side) : Json :=
  call "all" [call "!" [call "has" [.str (side.property .decimalYear)]],
    call "has" [.str (side.property .isoDate)], comparison q side .isoDate]

def notStated (side : Side) : Json :=
  call "all" [call "!" [call "has" [.str (side.property .decimalYear)]],
    call "!" [call "has" [.str (side.property .isoDate)]]]

theorem clause_eq (q : Qualifier) (side : Side) :
    clause q side = call "any" [byDecimalYear q side, byIsoDate q side, notStated side] := rfl

theorem value_byDecimalYear (f : Feature) (scope : Scope) (q : Qualifier) (side : Side) :
    value f scope (byDecimalYear q side) =
      if (f.property? (side.property .decimalYear)).isSome then
        value f scope (comparison q side .decimalYear)
      else .ok (.bool false) := by
  rw [byDecimalYear, value_all_cons (value_has _),
    value_all_singleton (isTest_comparison f scope q side _)]

theorem value_byIsoDate (f : Feature) (scope : Scope) (q : Qualifier) (side : Side) :
    value f scope (byIsoDate q side) =
      if (f.property? (side.property .decimalYear)).isNone then
        if (f.property? (side.property .isoDate)).isSome then
          value f scope (comparison q side .isoDate)
        else .ok (.bool false)
      else .ok (.bool false) := by
  rw [byIsoDate, value_all_cons (value_lacks _), value_all_cons (value_has _),
    value_all_singleton (isTest_comparison f scope q side _)]

theorem value_notStated (f : Feature) (scope : Scope) (side : Side) :
    value f scope (notStated side) =
      if (f.property? (side.property .decimalYear)).isNone then
        .ok (.bool (f.property? (side.property .isoDate)).isNone)
      else .ok (.bool false) := by
  rw [notStated, value_all_cons (value_lacks _),
    value_all_singleton (.inl ⟨_, value_lacks _⟩), value_lacks]

/-- Of the tests of a side only the comparison on the feature's own scale counts. -/
theorem value_clause_eq (f : Feature) (scope : Scope) (q : Qualifier) (side : Side) :
    value f scope (clause q side) =
      match f.scale? side with
      | some scale => value f scope (comparison q side scale)
      | none => .ok (.bool true) := by
  have hdecimal := value_byDecimalYear f scope q side
  have hiso := value_byIsoDate f scope q side
  have hnot := value_notStated f scope side
  -- What the feature states decides which of the tests counts, and the others are false.
  rw [clause_eq, Feature.scale?]
  cases hd : f.property? (side.property .decimalYear) with
  | some v =>
    simp only [hd, Option.isSome_some, Option.isNone_some, if_true, Bool.false_eq_true,
      if_false] at hdecimal hiso hnot ⊢
    rw [value_any_of_false _ _, hdecimal]
    · rw [IsTest, hdecimal]
      exact isTest_comparison f scope q side _
    · simp [hiso, hnot]
  | none =>
    simp only [hd, Option.isSome_none, Option.isNone_none, if_true, Bool.false_eq_true,
      if_false] at hdecimal hiso hnot ⊢
    rw [value_any_cons hdecimal, if_neg (by decide)]
    cases hi : f.property? (side.property .isoDate) with
    | some v =>
      simp only [hi, Option.isSome_some, Option.isNone_some, if_true] at hiso hnot ⊢
      rw [value_any_of_false _ _, hiso]
      · rw [IsTest, hiso]
        exact isTest_comparison f scope q side _
      · simp [hnot]
    | none =>
      simp only [hi, Option.isSome_none, Option.isNone_none, Bool.false_eq_true, if_false]
        at hiso hnot ⊢
      rw [value_any_cons hiso, if_neg (by decide), value_any_cons hnot, if_pos rfl]

/-- Where the variables are bound, a clause says whether the side is within its limit. -/
theorem value_clause (f : Feature) (q : Qualifier) (side : Side) (limit : Scale → Json)
    (h : ∀ scale, scope (name q ⟨side.opposite, scale⟩) = some (limit scale)) :
    value f scope (clause q side) = .ok (.bool (f.meets side limit)) := by
  rw [value_clause_eq, Feature.meets_eq]
  cases f.scale? side with
  | none => rfl
  | some scale => exact value_comparison (h scale)

end

end Variable

end Filter

end Chronomap
