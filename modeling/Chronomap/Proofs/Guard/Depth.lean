import Chronomap.Proofs.Guard.Reading
import Chronomap.Proofs.Json.Nesting

/-!
# How deep guards nest

A guard of an expression puts a filter two levels deeper and a guard of a legacy filter one level; a
filter that is a guard already stays as deep as it is.  The tests of a guard go four levels deep, so
for every filter

    filter within depth + 4 → Filter.constrain filter q p within depth + 6      (within_constrain)
-/

namespace Chronomap

/-- The values of a period are scalars. -/
theorem Period.within_value? {p : Period} {field : Filter.Field} {v : Json}
    (h : p.value? field = some v) (depth : Nat) : v.Within depth := by
  obtain ⟨side, scale⟩ := field
  cases scale with
  | decimalYear =>
    obtain ⟨x, -, rfl⟩ := Option.map_eq_some_iff.1 h
    unfold Json.ofFloat
    split
    · exact Json.within_num _
    · exact Json.within_null
  | isoDate =>
    obtain ⟨s, -, rfl⟩ := Option.map_eq_some_iff.1 h
    exact Json.within_str s

namespace Filter

/-- A call goes one level deeper than its arguments. -/
theorem within_call_iff {op : String} {args : List Json} {depth : Nat} :
    (call op args).Within (depth + 1) ↔ ∀ v ∈ args, v.Within depth := by
  rw [call, Json.within_arr_iff, List.forall_mem_cons]
  exact and_iff_right (Json.within_str op)

/-! ## Guards of legacy filters -/

namespace Literal

variable {depth : Nat}

theorem within_clause_iff {side : Side} {limits : Limits} :
    (clause side limits).Within (depth + 3) ↔
      limits.decimalYear.Within depth ∧ limits.isoDate.Within depth := by
  simp [clause, within_call_iff, Json.within_str]

theorem within_guard_iff {g : Guard} :
    g.toFilter.Within (depth + 4) ↔
      (g.start.decimalYear.Within depth ∧ g.start.isoDate.Within depth) ∧
        (g.finish.decimalYear.Within depth ∧ g.finish.isoDate.Within depth) ∧
          ∀ v ∈ g.guarded, v.Within (depth + 3) := by
  simp [Guard.toFilter, within_call_iff, within_clause_iff]

/-- A limit is replaced by a value of the period, or stays. -/
theorem within_set {limits : Limits}
    (h : limits.decimalYear.Within depth ∧ limits.isoDate.Within depth) (side : Side) (p : Period) :
    (limits.set side p).decimalYear.Within depth ∧ (limits.set side p).isoDate.Within depth := by
  have hset : ∀ (field : Field) {old : Json}, old.Within depth →
      ((p.value? field).getD old).Within depth := by
    intro field old hold
    cases hv : p.value? field with
    | none => exact hold
    | some v => exact Period.within_value? hv depth
  exact ⟨hset _ h.1, hset _ h.2⟩

theorem within_guard_set {g : Guard} (h : g.toFilter.Within (depth + 4)) (p : Period) :
    (g.set p).toFilter.Within (depth + 4) := by
  obtain ⟨hstart, hfinish, hguarded⟩ := within_guard_iff.1 h
  exact within_guard_iff.2 ⟨within_set hstart .start p, within_set hfinish .finish p, hguarded⟩

theorem within_constrain {filter : Option Json} (h : ∀ v ∈ present filter, v.Within (depth + 4))
    (p : Period) : (constrain filter p).Within (depth + 5) := by
  by_cases hguard : IsGuard filter
  · obtain ⟨g, rfl⟩ := hguard
    rw [constrain_toFilter]
    exact (within_guard_set (h _ (present_call _ _)) p).mono (Nat.le_succ _)
  · rw [constrain_of_not_isGuard hguard]
    have hunset : (Guard.unset (present filter)).toFilter.Within (depth + 1 + 4) :=
      within_guard_iff.2 ⟨⟨Json.within_null, Json.within_null⟩,
        ⟨Json.within_null, Json.within_null⟩, h⟩
    exact within_guard_set hunset p

end Literal

/-! ## Guards of expressions -/

namespace Variable

variable {depth : Nat}

theorem forall_mem_binderArgs {body : Json} {bindings : Json.Members} :
    (∀ v ∈ binderArgs body bindings, v.Within depth) ↔
      body.Within depth ∧ ∀ m ∈ bindings, m.2.Within depth := by
  induction bindings with
  | nil => simp [binderArgs]
  | cons m rest ih =>
    rw [binderArgs, List.forall_mem_cons, List.forall_mem_cons, List.forall_mem_cons, ih]
    constructor
    · rintro ⟨-, hm, hbody, hrest⟩
      exact ⟨hbody, hm, hrest⟩
    · rintro ⟨hbody, hm, hrest⟩
      exact ⟨Json.within_str m.1, hm, hbody, hrest⟩

theorem within_binder_iff {b : Binder} :
    b.toFilter.Within (depth + 1) ↔
      b.body.Within depth ∧ ∀ m ∈ b.bindings, m.2.Within depth := by
  rw [Binder.toFilter, within_call_iff, forall_mem_binderArgs]

/-- The tests of a guard go four levels deep. -/
theorem within_tests_iff {q : Qualifier} {guarded : Option Json} :
    (tests q guarded).Within (depth + 5) ↔ ∀ v ∈ guarded, v.Within (depth + 4) := by
  have hclause : ∀ side, (clause q side).Within (depth + 4) := by
    intro side
    simp [clause, within_call_iff, Json.within_str]
  rw [tests, within_call_iff, List.forall_mem_cons, List.forall_mem_cons,
    and_iff_right (hclause .start), and_iff_right (hclause .finish)]
  simp only [Option.mem_toList, Option.mem_def]

theorem within_values {q : Qualifier} {p : Period} :
    ∀ m ∈ values q p, m.2.Within depth := by
  intro m hm
  obtain ⟨field, -, hm⟩ := List.mem_filterMap.1 hm
  obtain ⟨v, hv, rfl⟩ := Option.map_eq_some_iff.1 hm
  exact Period.within_value? hv depth

theorem within_assign {new bindings : Json.Members} (hnew : ∀ m ∈ new, m.2.Within depth)
    (h : ∀ m ∈ bindings, m.2.Within depth) : ∀ m ∈ assign new bindings, m.2.Within depth := by
  unfold assign
  induction new generalizing bindings with
  | nil => exact h
  | cons m new ih =>
    rw [List.forall_mem_cons] at hnew
    exact ih hnew.2 (Json.forall_mem_insert h hnew.1 m.1)

/-- A filter that is no guard is put two levels deeper. -/
theorem within_constrain_iff {q : Qualifier} {filter : Option Json} (h : ¬ IsGuard q filter)
    (p : Period) :
    (constrain filter q p).Within (depth + 6) ↔ ∀ v ∈ present filter, v.Within (depth + 4) := by
  rw [constrain_of_not_isGuard h, within_binder_iff, and_iff_left within_values, within_tests_iff]

theorem within_constrain {filter : Option Json} (h : ∀ v ∈ present filter, v.Within (depth + 4))
    (q : Qualifier) (p : Period) : (constrain filter q p).Within (depth + 6) := by
  by_cases hguard : IsGuard q filter
  · obtain ⟨b, rfl, hb⟩ := hguard
    rw [constrain_toFilter hb]
    have hfilter : b.toFilter.Within (depth + 3 + 1) := h _ (present_call _ _)
    obtain ⟨hbody, hbindings⟩ := within_binder_iff.1 hfilter
    have hset : (b.set q p).toFilter.Within (depth + 3 + 1) :=
      within_binder_iff.2 ⟨hbody, within_assign within_values hbindings⟩
    exact hset.mono (by omega)
  · exact (within_constrain_iff hguard p).2 h

end Variable

/-- A guard nests at most two levels deeper than the filter in it. -/
theorem within_constrain {filter : Option Json} {depth : Nat}
    (h : ∀ v ∈ present filter, v.Within (depth + 4)) (q : Qualifier) (p : Period) :
    (constrain filter q p).Within (depth + 6) := by
  unfold constrain
  split
  · exact (Literal.within_constrain h p).mono (Nat.le_succ _)
  · exact Variable.within_constrain h q p

end Filter

end Chronomap
