import Chronomap.Proofs.Evaluation.Weakening
import Chronomap.Proofs.Guard.Overlap

/-!
# What a guarded filter means

A feature passes a guarded filter exactly if its lifespan overlaps the period and it passes the
filter.  A feature outside the period is turned away before the filter is looked at, so it meets
none of the filter's failures; every other feature meets all of them, save one: the guard of an
expression binds four names, and a filter that failed for want of one of them may go on.

    passes f (constrain filter q p) = .ok false, or passes f filter         (passes_constrain)
-/

namespace Chronomap.Filter

/-! ## Outcomes by dialect -/

theorem passes_legacy (f : Feature) {v : Json} (h : isLegacy v = true) :
    passes f v = Legacy.passes f v := by
  have hd := dialect_eq_legacy_iff.2 h
  unfold passes
  split
  · cases h
  · rw [hd]

theorem passes_expression (f : Feature) {v : Json} (hv : v ≠ .null) (h : isLegacy v = false) :
    passes f v = (Expression.value f .empty v).map Expression.isSatisfied := by
  have hd := dialect_eq_expression_iff.2 h
  unfold passes
  split
  · exact absurd rfl hv
  · rw [hd]

/-! ## Guards of legacy filters -/

namespace Literal

theorem passes_toFilter (f : Feature) (g : Guard) :
    passes f g.toFilter =
      if f.meets .start g.start.at && f.meets .finish g.finish.at then
        Legacy.allPass f g.guarded.toList
      else .ok false := by
  rw [passes_legacy f (isLegacy_guard g)]
  show Legacy.allPass f (clause .start g.start :: clause .finish g.finish :: g.guarded.toList) = _
  rw [Legacy.allPass, Legacy.allPass, passes_clause, passes_clause]
  cases f.meets .start g.start.at with
  | false => rfl
  | true =>
    cases f.meets .finish g.finish.at with
    | false => rfl
    | true => rfl

theorem allPass_toList (f : Feature) (guarded : Option Json) :
    Legacy.allPass f guarded.toList = (guarded.map (Legacy.passes f)).getD (.ok true) := by
  cases guarded with
  | none => rfl
  | some v =>
    show (do if ← Legacy.passes f v then Except.ok true else .ok false) = Legacy.passes f v
    cases Legacy.passes f v with
    | error e => rfl
    | ok b => cases b <;> rfl

/-- Limits that are set from nothing are those of the period. -/
theorem at_set_null (side : Side) (p : Period) :
    (Limits.set ⟨.null, .null⟩ side p).at = p.limit side := by
  funext scale
  cases scale <;> rfl

theorem passes_unset (f : Feature) (guarded : Option Json) (p : Period) :
    passes f ((Guard.unset guarded).set p).toFilter =
      if f.overlaps p then (guarded.map (Legacy.passes f)).getD (.ok true) else .ok false := by
  rw [passes_toFilter, ← allPass_toList]
  show (if f.meets .start (Limits.set ⟨.null, .null⟩ .start p).at &&
    f.meets .finish (Limits.set ⟨.null, .null⟩ .finish p).at then _ else _) = _
  rw [at_set_null, at_set_null]
  rfl

end Literal

/-! ## Guards of expressions -/

namespace Variable

open Expression

/-- A scope with all bindings of a list, of which later ones hide earlier ones. -/
def bindAll (scope : Scope) (bindings : Json.Members) : Scope :=
  bindings.foldl (fun scope m => scope.bind m.1 m.2) scope

theorem bindAll_of_not_mem {scope : Scope} {bindings : Json.Members} {key : String}
    (h : key ∉ bindings.map Prod.fst) : bindAll scope bindings key = scope key := by
  induction bindings generalizing scope with
  | nil => rfl
  | cons m rest ih =>
    rw [List.map_cons, List.mem_cons, not_or] at h
    show bindAll (scope.bind m.1 m.2) rest key = _
    rw [ih h.2, Scope.bind, if_neg h.1]

theorem bindAll_of_nodup {scope : Scope} {bindings : Json.Members} {key : String}
    (h : (bindings.map Prod.fst).Nodup) :
    bindAll scope bindings key = (Json.Members.get? key bindings).or (scope key) := by
  induction bindings generalizing scope with
  | nil => rfl
  | cons m rest ih =>
    rw [List.map_cons, List.nodup_cons] at h
    show bindAll (scope.bind m.1 m.2) rest key = _
    by_cases hk : m.1 = key
    · subst hk
      rw [bindAll_of_not_mem h.1, Scope.bind, if_pos rfl]
      simp [Json.Members.get?]
    · rw [ih h.2, Scope.bind, if_neg (Ne.symm hk)]
      simp [Json.Members.get?, hk]

/-- The scope of the body of a binder: its values are those that its expressions have in `scope`,
and they are bound on top of `inner`. -/
def bindValues (f : Feature) (scope inner : Scope) : Json.Members → Except Failure Scope
  | [] => .ok inner
  | m :: rest => do bindValues f scope (inner.bind m.1 (← value f scope m.2)) rest

/-- A binder is its body in the scope that its bindings make. -/
theorem bound_binderArgs {f : Feature} {scope inner : Scope} {node body : Json}
    {bindings : Json.Members} :
    bound f scope node inner (binderArgs body bindings) =
      (do value f (← bindValues f scope inner bindings) body) := by
  induction bindings generalizing inner with
  | nil => rfl
  | cons m rest ih =>
    rw [binderArgs, bound, bindValues]
    · cases value f scope m.2 with
      | error e => rfl
      | ok v => exact ih
    · intro hnil
      cases rest <;> cases hnil

/-- Values that are their own values are bound as they are. -/
theorem bindValues_eq_bindAll {f : Feature} {scope inner : Scope} {bindings : Json.Members}
    (h : ∀ m ∈ bindings, value f scope m.2 = .ok m.2) :
    bindValues f scope inner bindings = .ok (bindAll inner bindings) := by
  induction bindings generalizing inner with
  | nil => rfl
  | cons m rest ih =>
    rw [bindValues, h m List.mem_cons_self]
    exact ih fun m' hm' => h m' (List.mem_cons_of_mem m hm')

theorem value_field {p : Period} {field : Field} {v : Json} (h : p.value? field = some v)
    (f : Feature) (scope : Scope) : value f scope v = .ok v := by
  obtain ⟨side, scale⟩ := field
  cases scale with
  | decimalYear =>
    obtain ⟨x, -, rfl⟩ := Option.map_eq_some_iff.1 h
    unfold Json.ofFloat
    split <;> rfl
  | isoDate =>
    obtain ⟨s, -, rfl⟩ := Option.map_eq_some_iff.1 h
    rfl

theorem value_of_mem_values {q : Qualifier} {p : Period} {m : String × Json}
    (h : m ∈ values q p) (f : Feature) (scope : Scope) : value f scope m.2 = .ok m.2 := by
  obtain ⟨field, -, hfield⟩ := List.mem_filterMap.1 h
  obtain ⟨v, hv, rfl⟩ := Option.map_eq_some_iff.1 hfield
  exact value_field hv f scope

/-- A guard gives its own variables the values of its period, whatever is in scope around it. -/
theorem bindAll_values_name {q : Qualifier} {p : Period} (hp : p.Complete) (scope : Scope)
    (field : Field) : bindAll scope (values q p) (name q field) = p.value? field := by
  obtain ⟨v, hv⟩ := Option.isSome_iff_exists.1 (hp field)
  rw [bindAll_of_nodup nodup_values, get?_values, hv]
  rfl

/-- The scope of the tests of a guard that is set to a period. -/
def guardScope (q : Qualifier) (p : Period) : Scope := bindAll .empty (values q p)

/-- Beyond the four variables nothing is in scope. -/
theorem extendedBy_guardScope (q : Qualifier) (p : Period) :
    Scope.empty.ExtendedBy (fun key => ∃ field, key = name q field) (guardScope q p) := by
  intro key
  by_cases h : key ∈ (values q p).map Prod.fst
  · obtain ⟨m, hm, rfl⟩ := List.mem_map.1 h
    exact .inr ⟨eq_name_of_mem_values hm, rfl⟩
  · exact .inl (bindAll_of_not_mem h)

/-- A guard that is set to a period is its body with the variables of the period in scope. -/
theorem value_binder_values (f : Feature) (scope : Scope) (q : Qualifier) (p : Period)
    (body : Json) :
    value f scope (Binder.toFilter ⟨values q p, body⟩) =
      value f (bindAll scope (values q p)) body := by
  show bound f scope _ scope (binderArgs body (values q p)) = _
  rw [bound_binderArgs, bindValues_eq_bindAll fun _ hm => value_of_mem_values hm f scope]
  rfl

theorem isSatisfied_value_all (f : Feature) (scope : Scope) (args : List Json) :
    (value f scope (call "all" args)).map isSatisfied = allTrue f scope args := by
  rw [value_all]
  cases allTrue f scope args <;> rfl

theorem allTrue_toList (f : Feature) (scope : Scope) (guarded : Option Json) :
    allTrue f scope guarded.toList =
      (guarded.map fun v => (value f scope v).map isSatisfied).getD (.ok true) := by
  cases guarded with
  | none => rfl
  | some v =>
    show (do if isSatisfied (← value f scope v) then Except.ok true else .ok false) =
      (value f scope v).map isSatisfied
    cases value f scope v with
    | error e => rfl
    | ok w =>
      show (if isSatisfied w then Except.ok true else .ok false) = Except.ok (isSatisfied w)
      cases isSatisfied w <;> rfl

/-- The outcome of the tests and of the filter behind them. -/
theorem value_tests {scope : Scope} (f : Feature) (q : Qualifier) (limit : Side → Scale → Json)
    (guarded : Option Json)
    (h : ∀ side scale, scope (name q ⟨side.opposite, scale⟩) = some (limit side scale)) :
    (value f scope (tests q guarded)).map isSatisfied =
      if f.meets .start (limit .start) && f.meets .finish (limit .finish) then
        allTrue f scope guarded.toList
      else .ok false := by
  rw [tests, isSatisfied_value_all, allTrue, allTrue,
    value_clause f q .start (limit .start) (h .start),
    value_clause f q .finish (limit .finish) (h .finish)]
  cases f.meets .start (limit .start) with
  | false => rfl
  | true =>
    cases f.meets .finish (limit .finish) with
    | false => rfl
    | true => rfl

/-- A guard lets a feature through to the filter behind it if the feature overlaps its period. -/
theorem value_guard (f : Feature) (q : Qualifier) {p : Period} (hp : p.Complete) (scope : Scope)
    (guarded : Option Json) :
    (value f scope (Binder.toFilter ⟨values q p, tests q guarded⟩)).map isSatisfied =
      if f.overlaps p then allTrue f (bindAll scope (values q p)) guarded.toList
      else .ok false := by
  have hlimit : ∀ side scale,
      bindAll scope (values q p) (name q ⟨side.opposite, scale⟩) =
        some (p.limit side scale) := by
    intro side scale
    obtain ⟨v, hv⟩ := Option.isSome_iff_exists.1 (hp ⟨side.opposite, scale⟩)
    rw [bindAll_values_name hp, Period.limit, hv]
    rfl
  rw [value_binder_values, value_tests f q p.limit guarded hlimit]
  rfl

theorem passes_binder (f : Feature) (b : Binder) :
    passes f b.toFilter = (value f .empty b.toFilter).map isSatisfied :=
  passes_expression f (call_ne_null _ _) (isLegacy_binder b)

theorem passes_fresh (f : Feature) (q : Qualifier) {p : Period} (hp : p.Complete)
    (guarded : Option Json) :
    passes f (Binder.toFilter ⟨values q p, tests q guarded⟩) =
      if f.overlaps p then
        (guarded.map fun v => (value f (guardScope q p) v).map isSatisfied).getD (.ok true)
      else .ok false := by
  rw [passes_binder, value_guard f q hp, allTrue_toList]
  rfl

end Variable

/-! ## Guards of either dialect -/

theorem passes_constrain_of_legacy {v : Json} (hlegacy : isLegacy v = true)
    (hl : ¬ Literal.IsGuard (some v)) (q : Qualifier) (p : Period) (f : Feature) :
    passes f (constrain (some v) q p) = if f.overlaps p then passes f v else .ok false := by
  have hnull : v ≠ .null := by
    rintro rfl
    cases hlegacy
  rw [constrain, dialect_eq_legacy_iff.2 hlegacy]
  show passes f (Literal.constrain (some v) p) = _
  rw [Literal.constrain_of_not_isGuard hl, Literal.passes_unset, present_of_ne_null hnull,
    passes_legacy f hlegacy]
  rfl

/-- The filter behind the guard of an expression is evaluated with four more variables. -/
theorem passes_constrain_of_expression {filter : Option Json}
    (hexpr : Dialect.ofFilter filter = .expression) {q : Qualifier}
    (hv : ¬ Variable.IsGuard q filter) {p : Period} (hp : p.Complete) (f : Feature) :
    passes f (constrain filter q p) =
      if f.overlaps p then
        ((present filter).map fun v =>
          (Expression.value f (Variable.guardScope q p) v).map Expression.isSatisfied).getD
            (.ok true)
      else .ok false := by
  rw [constrain, hexpr]
  show passes f (Variable.constrain filter q p) = _
  rw [Variable.constrain_of_not_isGuard hv, Variable.passes_fresh f q hp]

/-- Under the variables of a guard an expression passes the same features, unless it failed for
want of one of the variables. -/
theorem passes_under_guardScope {v : Json} (hnull : v ≠ .null) (hexpr : isLegacy v = false)
    (q : Qualifier) (p : Period) (f : Feature) :
    (Expression.value f (Variable.guardScope q p) v).map Expression.isSatisfied = passes f v ∨
      ∃ field, passes f v = .error (.unbound (Variable.name q field)) := by
  rw [passes_expression f hnull hexpr]
  rcases Expression.value_sameUnless f (Variable.extendedBy_guardScope q p) v with
    heq | ⟨_, ⟨field, rfl⟩, hfail⟩
  · rw [heq]
    exact .inl rfl
  · rw [hfail]
    exact .inr ⟨field, rfl⟩

/-- A feature outside the period never passes a filter that is guarded for the first time.  Any other
feature has the outcome that it has for the filter itself, unless this failed for want of a variable
that the guard binds. -/
theorem passes_constrain {filter : Option Json} {q : Qualifier} {p : Period} (hp : p.Complete)
    (hl : ¬ Literal.IsGuard filter) (hv : ¬ Variable.IsGuard q filter) (f : Feature) :
    (f.overlaps p = false → passes f (constrain filter q p) = .ok false) ∧
      (f.overlaps p = true →
        passes f (constrain filter q p) = passes f (filter.getD .null) ∨
          ∃ field, passes f (filter.getD .null) = .error (.unbound (Variable.name q field))) := by
  cases hd : Dialect.ofFilter filter with
  | legacy =>
    cases filter with
    | none => cases hd
    | some v =>
      rw [passes_constrain_of_legacy (dialect_eq_legacy_iff.1 hd) hl]
      exact ⟨fun ho => if_neg (by rw [ho]; decide), fun ho => .inl (if_pos ho)⟩
  | expression =>
    rw [passes_constrain_of_expression hd hv hp]
    refine ⟨fun ho => if_neg (by rw [ho]; decide), fun ho => ?_⟩
    rw [if_pos ho]
    cases filter with
    | none => exact .inl rfl
    | some v =>
      by_cases hnull : v = .null
      · subst hnull
        exact .inl rfl
      · rw [present_of_ne_null hnull]
        exact passes_under_guardScope hnull (dialect_eq_expression_iff.1 hd) q p f

/-- A filter with a variable of its own. -/
def primaryRoads : Json :=
  .arr [.str "let", .str "wanted", .str "primary",
    .arr [.str "==", .arr [.str "get", .str "class"], .arr [.str "var", .str "wanted"]]]

def roadSince (day : String) : Feature :=
  ⟨none, some "LineString", [("class", .str "primary"), ("start_date", .str day)]⟩

theorem passes_constrain_primaryRoads :
    (Period.ofYear 2013).Complete ∧ ¬ Literal.IsGuard (some primaryRoads) ∧
      ¬ Variable.IsGuard .standard (some primaryRoads) ∧
      passes (roadSince "2012-06-01") (constrain (some primaryRoads) .standard (.ofYear 2013)) =
        .ok true ∧
      passes (roadSince "2014-01-01") (constrain (some primaryRoads) .standard (.ofYear 2013)) =
        .ok false := by
  have hp : (Period.ofYear 2013).Complete := Period.complete_ofYear (by decide)
  have hl : ¬ Literal.IsGuard (some primaryRoads) := by decide
  have hv : ¬ Variable.IsGuard .standard (some primaryRoads) := by decide
  refine ⟨hp, hl, hv, ?_, (passes_constrain hp hl hv _).1 (by decide)⟩
  have hroad : passes (roadSince "2012-06-01") primaryRoads = .ok true := rfl
  rcases (passes_constrain hp hl hv (roadSince "2012-06-01")).2 (by decide) with h | ⟨_, h⟩
  · exact h.trans hroad
  · exact absurd (hroad.symm.trans h) (by simp)

end Chronomap.Filter
