import Chronomap.Proofs.Guard.Updates

/-!
# The same period twice

A guard that is set to the same period again does not change.  Guarding a filter again finds the
guard that is there, with one exception: the guard of an expression is known by its variables, and
a period without any value binds none, so its guard is not found and gets a guard of its own.

    constrain (some (constrain filter q p)) q p = constrain filter q p ↔
      the filter is legacy, or binds a variable of q, or p has a value   (constrain_again_eq_iff)

In the exceptional case every further time adds one more layer (`constrainEach_replicate`).
-/

namespace Chronomap

theorem Endpoint.orElse_self (e : Endpoint) : e.orElse e = e := by
  simp [Endpoint.orElse]

theorem Period.orElse_self (p : Period) : p.orElse p = p := by
  simp [Period.orElse, Endpoint.orElse_self]

/-- A period has a value for none of its fields. -/
def Period.IsBlank (p : Period) : Prop := ∀ field, p.value? field = none

theorem Period.isBlank_of_not_exists {p : Period}
    (h : ¬ ∃ field, (p.value? field).isSome) : p.IsBlank := by
  intro field
  rw [← Option.not_isSome_iff_eq_none]
  exact fun hsome => h ⟨field, hsome⟩

namespace Filter

/-! ## Legacy filters -/

theorem Literal.constrain_again (filter : Option Json) (p : Period) :
    constrain (some (constrain filter p)) p = constrain filter p := by
  rw [constrain_constrain_orElse, Period.orElse_self]

/-! ## Expressions -/

namespace Variable

variable {q : Qualifier} {p : Period} {filter : Option Json}

theorem binder_set_again (b : Binder) (q : Qualifier) (p : Period) :
    (b.set q p).set q p = b.set q p := by
  simp only [Binder.set, assign_assign rfl nodup_values]

/-- A guard with a variable to know it by is found again. -/
theorem constrain_again (h : IsGuard q filter ∨ ∃ field, (p.value? field).isSome) :
    constrain (some (constrain filter q p)) q p = constrain filter q p := by
  obtain ⟨b, hset, hguard⟩ := exists_binder filter q
  have hbinds : (b.set q p).BindsOwn q := by
    rcases h with h | ⟨field, h⟩
    · exact bindsOwn_set (hguard h) p
    · exact bindsOwn_set_of_isSome h b
  rw [hset p, constrain_toFilter hbinds, binder_set_again]

/-- The guard around a filter that a blank period makes: its tests, and no variables. -/
def blankGuard (q : Qualifier) (filter : Option Json) : Json :=
  Binder.toFilter ⟨[], tests q filter⟩

theorem not_isGuard_blankGuard (q : Qualifier) (filter : Option Json) :
    ¬ IsGuard q (some (blankGuard q filter)) := by
  rintro ⟨b, hb, field, hfield⟩
  obtain rfl := toFilter_inj (Option.some.inj hb)
  cases hfield

theorem present_blankGuard (q : Qualifier) (filter : Option Json) :
    present (some (blankGuard q filter)) = some (blankGuard q filter) := present_call _ _

theorem values_of_isBlank (hp : p.IsBlank) : values q p = [] := by
  rw [values, List.filterMap_eq_nil_iff]
  intro field _
  rw [hp field, Option.map_none]

theorem constrain_of_isBlank (h : ¬ IsGuard q filter) (hp : p.IsBlank) :
    constrain filter q p = blankGuard q (present filter) := by
  rw [constrain_of_not_isGuard h, values_of_isBlank hp, blankGuard]

/-- What a guard is around is a part of it. -/
theorem blankGuard_ne (q : Qualifier) (v : Json) : blankGuard q (some v) ≠ v := by
  intro h
  have hsize := congrArg sizeOf h
  simp only [blankGuard, Binder.toFilter, binderArgs, tests, call, Option.toList_some,
    Json.arr.sizeOf_spec, List.cons.sizeOf_spec, List.nil.sizeOf_spec] at hsize
  omega

end Variable

/-! ## Either dialect -/

section

variable {filter : Option Json} {q : Qualifier} {p : Period}

theorem constrain_of_legacy (h : Dialect.ofFilter filter = .legacy) (q : Qualifier) (p : Period) :
    constrain filter q p = Literal.constrain filter p := by
  rw [constrain, h]

theorem constrain_of_expression (h : Dialect.ofFilter filter = .expression) (q : Qualifier)
    (p : Period) : constrain filter q p = Variable.constrain filter q p := by
  rw [constrain, h]

/-- A guard that is found again is set to the period that it is set to. -/
theorem constrain_again_eq (h : Dialect.ofFilter filter = .legacy ∨ Variable.IsGuard q filter ∨
    ∃ field, (p.value? field).isSome) :
    constrain (some (constrain filter q p)) q p = constrain filter q p := by
  have hagain := dialect_constrain filter q p
  cases hd : Dialect.ofFilter filter with
  | legacy =>
    rw [hd] at hagain
    rw [constrain_of_legacy hagain, constrain_of_legacy hd, Literal.constrain_again]
  | expression =>
    rw [hd] at hagain
    have hvariable : Variable.IsGuard q filter ∨ ∃ field, (p.value? field).isSome := by
      simpa [hd] using h
    rw [constrain_of_expression hagain, constrain_of_expression hd,
      Variable.constrain_again hvariable]

/-- A guard that a blank period made gets a guard of its own. -/
theorem constrain_blankGuard (hp : p.IsBlank) (inner : Option Json) :
    constrain (some (Variable.blankGuard q inner)) q p =
      Variable.blankGuard q (some (Variable.blankGuard q inner)) := by
  have hd : Dialect.ofFilter (some (Variable.blankGuard q inner)) = .expression :=
    dialect_binder _
  rw [constrain_of_expression hd,
    Variable.constrain_of_isBlank (Variable.not_isGuard_blankGuard q inner) hp,
    Variable.present_blankGuard]

theorem constrainEach_append (q : Qualifier) (filter : Option Json) (ps qs : List Period) :
    constrainEach q filter (ps ++ qs) = constrainEach q (constrainEach q filter ps) qs :=
  List.foldl_append

/-- A blank period adds a layer each time. -/
theorem constrainEach_replicate (hd : Dialect.ofFilter filter = .expression)
    (hguard : ¬ Variable.IsGuard q filter) (hp : p.IsBlank) (n : Nat) :
    constrainEach q filter (List.replicate (n + 1) p) =
      Nat.repeat (fun inner => some (Variable.blankGuard q inner)) (n + 1) (present filter) := by
  induction n with
  | zero =>
    show some (constrain filter q p) = _
    rw [constrain_of_expression hd, Variable.constrain_of_isBlank hguard hp]
    rfl
  | succ n ih =>
    -- The layers so far are again a guard that nothing tells from another filter.
    obtain ⟨inner, hinner⟩ : ∃ inner,
        Nat.repeat (fun inner => some (Variable.blankGuard q inner)) (n + 1) (present filter) =
          some (Variable.blankGuard q inner) := ⟨_, rfl⟩
    rw [List.replicate_succ', constrainEach_append, ih, hinner]
    show some (constrain (some (Variable.blankGuard q inner)) q p) = _
    rw [constrain_blankGuard hp, ← hinner]
    rfl

/-- Guarding a filter twice by the same period is the same as once, unless the guard is around an
expression and the period has no value to know it by. -/
theorem constrain_again_eq_iff (filter : Option Json) (q : Qualifier) (p : Period) :
    constrain (some (constrain filter q p)) q p = constrain filter q p ↔
      Dialect.ofFilter filter = .legacy ∨ Variable.IsGuard q filter ∨
        ∃ field, (p.value? field).isSome := by
  refine ⟨?_, constrain_again_eq⟩
  intro h
  cases hd : Dialect.ofFilter filter with
  | legacy => exact .inl rfl
  | expression =>
    by_cases hguard : Variable.IsGuard q filter
    · exact .inr (.inl hguard)
    · by_cases hvalue : ∃ field, (p.value? field).isSome
      · exact .inr (.inr hvalue)
      · have hp := Period.isBlank_of_not_exists hvalue
        rw [constrain_of_expression hd, Variable.constrain_of_isBlank hguard hp,
          constrain_blankGuard hp] at h
        exact absurd h (Variable.blankGuard_ne q _)

def blank : Period := ⟨⟨none, none, none⟩, ⟨none, none, none⟩⟩

theorem constrain_blank_again_ne :
    constrain (some (constrain none .standard blank)) .standard blank ≠
      constrain none .standard blank := by
  decide

end

end Filter

end Chronomap
