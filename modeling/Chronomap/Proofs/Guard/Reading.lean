import Chronomap.Filter.Guard

/-!
# Guards are read back as they were written

A filter is taken for a guard of either dialect exactly if some guard is written that way, and
then the guard is that one:

    Literal.Guard.ofFilter? v = some g ↔ v = g.toFilter       (Literal.ofFilter?_eq_some_iff)
    Variable.Binder.ofFilter? v = some b ↔ v = b.toFilter     (Variable.ofFilter?_eq_some_iff)

So guarding a filter has two equations in each dialect: one for a filter that is a guard, and one
for every other filter.
-/

namespace Chronomap.Filter

theorem args?_eq_some_iff {op : String} {v : Json} {args : List Json} :
    args? op v = some args ↔ v = call op args :=
  ⟨eq_call_of_args?, fun h => h ▸ args?_call op args⟩

theorem present_of_ne_null {v : Json} (h : v ≠ .null) : present (some v) = some v := by
  cases v <;> first | rfl | exact absurd rfl h

theorem present_call (op : String) (args : List Json) :
    present (some (call op args)) = some (call op args) := rfl

/-- What is left of a filter is the filter itself, or nothing of `null`. -/
theorem present_eq (filter : Option Json) :
    present filter = filter ∨ present filter = none ∧ filter = some .null := by
  cases filter with
  | none => exact .inl rfl
  | some v => cases v <;> first | exact .inl rfl | exact .inr ⟨rfl, rfl⟩

theorem call_ne_null (op : String) (args : List Json) : call op args ≠ .null := by
  intro h
  cases h

theorem present_eq_some_iff {filter : Option Json} {v : Json} (hv : v ≠ .null) :
    present filter = some v ↔ filter = some v := by
  rcases present_eq filter with h | ⟨h, hnull⟩
  · rw [h]
  · rw [h, hnull]
    constructor
    · intro hnone
      cases hnone
    · intro heq
      exact absurd (Option.some.inj heq).symm hv

/-! ## Guards of legacy filters -/

namespace Literal

/-- A filter is a guard of the legacy dialect, with whatever literals. -/
def IsGuard (filter : Option Json) : Prop := ∃ g : Guard, filter = some g.toFilter

theorem limit?_eq_some_iff {side : Side} {scale : Scale} {v l : Json} :
    limit? side scale v = some l ↔
      v = call side.comparison.name [.str (side.property scale), l] := by
  unfold limit?
  constructor
  · intro h
    split at h
    · next key literal hargs =>
      split at h
      · next hkey =>
        obtain rfl := Option.some.inj h
        rw [args?_eq_some_iff.1 hargs, hkey]
      · cases h
    · cases h
  · rintro rfl
    simp [args?_call]

theorem limits?_clause (side : Side) (limits : Limits) :
    limits? side (clause side limits) = some limits := by
  have hd : limit? side .decimalYear (call side.comparison.name
      [.str (side.property .decimalYear), limits.decimalYear]) = some limits.decimalYear :=
    limit?_eq_some_iff.2 rfl
  have hi : limit? side .isoDate (call side.comparison.name
      [.str (side.property .isoDate), limits.isoDate]) = some limits.isoDate :=
    limit?_eq_some_iff.2 rfl
  simp [limits?, clause, args?_call, hd, hi]

theorem eq_clause_of_limits? {side : Side} {v : Json} {limits : Limits}
    (h : limits? side v = some limits) : v = clause side limits := by
  unfold limits? at h
  simp only at h
  split at h
  · next byDecimal byIso unlimited hany =>
    split at h
    · next hasDecimal decimalWithin lacksDecimal hasIso isoWithin hdec hiso =>
      split at h
      · next hshape =>
        obtain ⟨rfl, rfl, rfl, rfl⟩ := hshape
        split at h
        · next d i hd hi =>
          obtain rfl := Option.some.inj h
          rw [args?_eq_some_iff.1 hany, args?_eq_some_iff.1 hdec, args?_eq_some_iff.1 hiso,
            limit?_eq_some_iff.1 hd, limit?_eq_some_iff.1 hi]
          rfl
        · cases h
      · cases h
    · cases h
  · cases h

theorem ofFilter?_toFilter (g : Guard) : Guard.ofFilter? g.toFilter = some g := by
  obtain ⟨s, f, guarded⟩ := g
  cases guarded with
  | none => simp [Guard.ofFilter?, Guard.toFilter, args?_call, limits?_clause]
  | some v => simp [Guard.ofFilter?, Guard.toFilter, args?_call, limits?_clause]

theorem eq_toFilter_of_ofFilter? {v : Json} {g : Guard} (h : Guard.ofFilter? v = some g) :
    v = g.toFilter := by
  unfold Guard.ofFilter? at h
  split at h
  · next s f hargs =>
    split at h
    · next start finish hs hf =>
      obtain rfl := Option.some.inj h
      rw [args?_eq_some_iff.1 hargs, eq_clause_of_limits? hs, eq_clause_of_limits? hf]
      rfl
    · cases h
  · next s f guarded hargs =>
    split at h
    · next start finish hs hf =>
      obtain rfl := Option.some.inj h
      rw [args?_eq_some_iff.1 hargs, eq_clause_of_limits? hs, eq_clause_of_limits? hf]
      rfl
    · cases h
  · cases h

theorem ofFilter?_eq_some_iff {v : Json} {g : Guard} :
    Guard.ofFilter? v = some g ↔ v = g.toFilter :=
  ⟨eq_toFilter_of_ofFilter?, fun h => h ▸ ofFilter?_toFilter g⟩

theorem isGuard_iff {filter : Option Json} :
    IsGuard filter ↔ (filter.bind Guard.ofFilter?).isSome = true := by
  rw [Option.isSome_iff_exists]
  constructor
  · rintro ⟨g, rfl⟩
    exact ⟨g, ofFilter?_toFilter g⟩
  · rintro ⟨g, hg⟩
    obtain ⟨v, rfl, hv⟩ := Option.bind_eq_some_iff.1 hg
    exact ⟨g, by rw [ofFilter?_eq_some_iff.1 hv]⟩

instance (filter : Option Json) : Decidable (IsGuard filter) :=
  decidable_of_iff _ isGuard_iff.symm

theorem isGuard_present {filter : Option Json} : IsGuard (present filter) ↔ IsGuard filter := by
  apply exists_congr
  intro g
  exact present_eq_some_iff (call_ne_null _ _)

/-- A guard is set to the period. -/
theorem constrain_toFilter (g : Guard) (p : Period) :
    constrain (some g.toFilter) p = (g.set p).toFilter := by
  have hp : present (some g.toFilter) = some g.toFilter := present_call _ _
  simp only [constrain, hp, Option.bind_some, ofFilter?_toFilter, Option.getD_some]

/-- Every other filter gets a guard around it. -/
theorem constrain_of_not_isGuard {filter : Option Json} (h : ¬ IsGuard filter) (p : Period) :
    constrain filter p = ((Guard.unset (present filter)).set p).toFilter := by
  rw [← isGuard_present, isGuard_iff, Option.not_isSome_iff_eq_none] at h
  simp only [constrain, h, Option.getD_none]

end Literal

/-! ## Guards of expressions -/

namespace Variable

theorem binder?_binderArgs (body : Json) (bindings : Json.Members) :
    binder? (binderArgs body bindings) = some ⟨bindings, body⟩ := by
  induction bindings with
  | nil => rfl
  | cons m rest ih =>
    simp only [binderArgs, binder?, ih, Option.map_some]

theorem eq_binderArgs_of_binder? {args : List Json} {b : Binder} (h : binder? args = some b) :
    args = binderArgs b.body b.bindings := by
  induction args using binder?.induct generalizing b with
  | case1 => cases h
  | case2 body =>
    obtain rfl := Option.some.inj h
    rfl
  | case3 key v args ih =>
    obtain ⟨inner, hinner, rfl⟩ := Option.map_eq_some_iff.1 h
    simp only [binderArgs]
    rw [← ih hinner]
  | case4 x y args hx =>
    rw [binder?] at h
    · cases h
    · exact hx

theorem ofFilter?_toFilter (b : Binder) : Binder.ofFilter? b.toFilter = some b := by
  simp only [Binder.ofFilter?, Binder.toFilter, args?_call, Option.bind_some,
    binder?_binderArgs]

theorem ofFilter?_eq_some_iff {v : Json} {b : Binder} :
    Binder.ofFilter? v = some b ↔ v = b.toFilter := by
  constructor
  · intro h
    obtain ⟨args, hargs, hb⟩ := Option.bind_eq_some_iff.1 h
    rw [args?_eq_some_iff.1 hargs, eq_binderArgs_of_binder? hb]
    rfl
  · rintro rfl
    exact ofFilter?_toFilter b

theorem toFilter_inj {b c : Binder} (eq : b.toFilter = c.toFilter) : b = c := by
  have hb := ofFilter?_toFilter b
  rw [eq, ofFilter?_toFilter c] at hb
  exact (Option.some.inj hb).symm

/-- A binder has one of the variables that a qualifier names. -/
def Binder.BindsOwn (q : Qualifier) (b : Binder) : Prop :=
  ∃ field, name q field ∈ b.bindings.map Prod.fst

/-- A filter is a `let` that binds one of the variables that a qualifier names. -/
def IsGuard (q : Qualifier) (filter : Option Json) : Prop :=
  ∃ b : Binder, filter = some b.toFilter ∧ b.BindsOwn q

theorem isOwn_iff {q : Qualifier} {key : String} :
    isOwn q key = true ↔ ∃ field, name q field = key := by
  unfold isOwn
  rw [List.any_eq_true]
  constructor
  · rintro ⟨field, -, h⟩
    exact ⟨field, eq_of_beq h⟩
  · rintro ⟨field, h⟩
    exact ⟨field, Field.mem_all field, beq_iff_eq.2 h⟩

theorem isGuard_eq_true_iff {q : Qualifier} {b : Binder} :
    b.isGuard q = true ↔ b.BindsOwn q := by
  unfold Binder.isGuard Binder.BindsOwn
  rw [List.any_eq_true]
  constructor
  · rintro ⟨m, hm, hown⟩
    obtain ⟨field, hfield⟩ := isOwn_iff.1 hown
    exact ⟨field, hfield ▸ List.mem_map_of_mem hm⟩
  · rintro ⟨field, hfield⟩
    obtain ⟨m, hm, hkey⟩ := List.mem_map.1 hfield
    exact ⟨m, hm, isOwn_iff.2 ⟨field, hkey.symm⟩⟩

theorem isGuard_iff {q : Qualifier} {filter : Option Json} :
    IsGuard q filter ↔
      ((filter.bind Binder.ofFilter?).filter (·.isGuard q)).isSome = true := by
  rw [Option.isSome_iff_exists]
  constructor
  · rintro ⟨b, rfl, hb⟩
    refine ⟨b, Option.filter_eq_some_iff.2 ⟨ofFilter?_toFilter b, ?_⟩⟩
    exact isGuard_eq_true_iff.2 hb
  · rintro ⟨b, hb⟩
    obtain ⟨hread, hguard⟩ := Option.filter_eq_some_iff.1 hb
    obtain ⟨v, rfl, hv⟩ := Option.bind_eq_some_iff.1 hread
    exact ⟨b, by rw [ofFilter?_eq_some_iff.1 hv], isGuard_eq_true_iff.1 hguard⟩

instance (q : Qualifier) (filter : Option Json) : Decidable (IsGuard q filter) :=
  decidable_of_iff _ isGuard_iff.symm

theorem isGuard_present {q : Qualifier} {filter : Option Json} :
    IsGuard q (present filter) ↔ IsGuard q filter := by
  apply exists_congr
  intro b
  rw [present_eq_some_iff (v := b.toFilter) (call_ne_null _ _)]

/-- A `let` that binds a variable of the qualifier is set to the period. -/
theorem constrain_toFilter {q : Qualifier} {b : Binder} (h : b.BindsOwn q) (p : Period) :
    constrain (some b.toFilter) q p = (b.set q p).toFilter := by
  have hp : present (some b.toFilter) = some b.toFilter := present_call _ _
  have hb : (some b).filter (·.isGuard q) = some b :=
    Option.filter_eq_some_iff.2 ⟨rfl, isGuard_eq_true_iff.2 h⟩
  simp only [constrain, hp, Option.bind_some, ofFilter?_toFilter, hb]

/-- Every other filter gets a guard around it. -/
theorem constrain_of_not_isGuard {q : Qualifier} {filter : Option Json}
    (h : ¬ IsGuard q filter) (p : Period) :
    constrain filter q p = Binder.toFilter ⟨values q p, tests q (present filter)⟩ := by
  rw [← isGuard_present, isGuard_iff, Option.not_isSome_iff_eq_none] at h
  simp only [constrain, h]

end Variable

/-! ## The dialects of guards -/

theorem dialect_eq_legacy_iff {v : Json} :
    Dialect.ofFilter (some v) = .legacy ↔ isLegacy v = true := by
  cases h : isLegacy v <;> simp [Dialect.ofFilter, h]

theorem dialect_eq_expression_iff {v : Json} :
    Dialect.ofFilter (some v) = .expression ↔ isLegacy v = false := by
  cases h : isLegacy v <;> simp [Dialect.ofFilter, h]

theorem isLegacy_clause (side : Side) (limits : Literal.Limits) :
    isLegacy (Literal.clause side limits) = true := by
  simp [Literal.clause, call, isLegacy, anyLegacy]

theorem isLegacy_guard (g : Literal.Guard) : isLegacy g.toFilter = true := by
  simp [Literal.Guard.toFilter, call, isLegacy, isLegacy_clause]

theorem isLegacy_binder (b : Variable.Binder) : isLegacy b.toFilter = false := by
  obtain ⟨bindings, body⟩ := b
  cases bindings with
  | nil => simp [Variable.Binder.toFilter, Variable.binderArgs, call, isLegacy, Comparison.ofName?]
  | cons m rest =>
    simp [Variable.Binder.toFilter, Variable.binderArgs, call, isLegacy, Comparison.ofName?]

theorem dialect_guard (g : Literal.Guard) :
    Dialect.ofFilter (some g.toFilter) = .legacy :=
  dialect_eq_legacy_iff.2 (isLegacy_guard g)

theorem dialect_binder (b : Variable.Binder) :
    Dialect.ofFilter (some b.toFilter) = .expression :=
  dialect_eq_expression_iff.2 (isLegacy_binder b)

end Chronomap.Filter
