import Chronomap.Filter.Evaluation

/-!
# Evaluation with more variables in scope

An expression that is moved under further bindings keeps its value.  The one thing that the
bindings can change is a failure: an expression that failed because nothing bound one of the new
names may go on.

    value f inner e = value f scope e,
      unless value f scope e fails on one of the new names      (value_sameUnless)
-/

namespace Chronomap.Filter.Expression

/-! ## Scopes -/

/-- Beyond the variables of `scope`, `inner` binds some of the given names. -/
def Scope.ExtendedBy (names : String → Prop) (scope inner : Scope) : Prop :=
  ∀ name, inner name = scope name ∨ names name ∧ scope name = none

theorem Scope.ExtendedBy.bind {names : String → Prop} {scope inner : Scope}
    (h : scope.ExtendedBy names inner) (name : String) (v : Json) :
    (scope.bind name v).ExtendedBy names (inner.bind name v) := by
  intro other
  unfold Scope.bind
  by_cases ho : other = name
  · rw [if_pos ho, if_pos ho]
    exact .inl rfl
  · rw [if_neg ho, if_neg ho]
    exact h other

/-! ## Outcomes -/

section

variable {α β : Type} {names : String → Prop}

/-- The second outcome is the first, unless the first is a failure on one of the given names. -/
def SameUnless (names : String → Prop) (r s : Except Failure α) : Prop :=
  s = r ∨ ∃ name, names name ∧ r = .error (.unbound name)

theorem SameUnless.rfl {r : Except Failure α} : SameUnless names r r := .inl (Eq.refl r)

theorem SameUnless.bind {r s : Except Failure α} {g h : α → Except Failure β}
    (start : SameUnless names r s) (next : ∀ a, SameUnless names (g a) (h a)) :
    SameUnless names (r >>= g) (s >>= h) := by
  rcases start with rfl | ⟨name, hn, rfl⟩
  · cases s with
    | error e => exact .rfl
    | ok a => exact next a
  · exact .inr ⟨name, hn, Eq.refl _⟩

/-- What is computed from two outcomes without looking at the variables. -/
theorem SameUnless.map {r s : Except Failure α} (start : SameUnless names r s) (g : α → β) :
    SameUnless names (do return g (← r)) (do return g (← s)) :=
  start.bind fun _ => .rfl

end

/-! ## Expressions -/

section

variable {names : String → Prop}

/-- A variable that `scope` has is read alike; one that it lacks fails there. -/
theorem var_sameUnless {scope inner : Scope} (h : scope.ExtendedBy names inner)
    (name : String) :
    SameUnless names
      (match scope name with
        | some v => .ok v
        | none => .error (.unbound name))
      (match inner name with
        | some v => .ok v
        | none => .error (.unbound name)) := by
  rcases h name with heq | ⟨hn, hnone⟩
  · rw [heq]
    exact .rfl
  · rw [hnone]
    exact .inr ⟨name, hn, rfl⟩

mutual

theorem value_sameUnless (f : Feature) {scope inner : Scope}
    (h : scope.ExtendedBy names inner) :
    (e : Json) → SameUnless names (value f scope e) (value f inner e)
  | .arr (.str op :: args) => by
    rw [value, value]
    have hfirst := first_sameUnless f h args
    split
    · exact .rfl
    · exact hfirst.map _
    · exact hfirst.map _
    · exact .rfl
    · exact .rfl
    · exact hfirst.map _
    · exact (allTrue_sameUnless f h args).map _
    · exact (anyTrue_sameUnless f h args).map _
    · exact hfirst.bind fun _ => (second_sameUnless f h args).map _
    · exact hfirst.bind fun _ => (second_sameUnless f h args).map _
    · exact firstPresent_sameUnless f h args
    · exact firstChosen_sameUnless f h args
    · exact selected_sameUnless f h args
    · exact hfirst.map _
    · exact bound_sameUnless f h _ h args
    · exact var_sameUnless h _
    · exact .rfl
  -- What is no call has the same value, or the same failure, in every scope.
  | .arr [] | .arr (.null :: _) | .arr (.bool _ :: _) | .arr (.num _ :: _)
  | .arr (.arr _ :: _) | .arr (.obj _ :: _) | .obj _ => .rfl
  | .null | .bool _ | .num _ | .str _ => .rfl

theorem first_sameUnless (f : Feature) {scope inner : Scope}
    (h : scope.ExtendedBy names inner) :
    (args : List Json) → SameUnless names (first f scope args) (first f inner args)
  | [] => .rfl
  | x :: _ => by
    rw [first, first]
    exact value_sameUnless f h x

theorem second_sameUnless (f : Feature) {scope inner : Scope}
    (h : scope.ExtendedBy names inner) :
    (args : List Json) → SameUnless names (second f scope args) (second f inner args)
  | [] => .rfl
  | _ :: xs => by
    rw [second, second]
    exact first_sameUnless f h xs

theorem allTrue_sameUnless (f : Feature) {scope inner : Scope}
    (h : scope.ExtendedBy names inner) :
    (args : List Json) → SameUnless names (allTrue f scope args) (allTrue f inner args)
  | [] => .rfl
  | x :: xs => by
    rw [allTrue, allTrue]
    refine (value_sameUnless f h x).bind fun v => ?_
    split
    · exact allTrue_sameUnless f h xs
    · exact .rfl

theorem anyTrue_sameUnless (f : Feature) {scope inner : Scope}
    (h : scope.ExtendedBy names inner) :
    (args : List Json) → SameUnless names (anyTrue f scope args) (anyTrue f inner args)
  | [] => .rfl
  | x :: xs => by
    rw [anyTrue, anyTrue]
    refine (value_sameUnless f h x).bind fun v => ?_
    split
    · exact .rfl
    · exact anyTrue_sameUnless f h xs

theorem firstPresent_sameUnless (f : Feature) {scope inner : Scope}
    (h : scope.ExtendedBy names inner) :
    (args : List Json) →
      SameUnless names (firstPresent f scope args) (firstPresent f inner args)
  | [] => .rfl
  | x :: xs => by
    rw [firstPresent, firstPresent]
    refine (value_sameUnless f h x).bind fun v => ?_
    split
    · exact firstPresent_sameUnless f h xs
    · exact .rfl

theorem firstChosen_sameUnless (f : Feature) {scope inner : Scope}
    (h : scope.ExtendedBy names inner) :
    (args : List Json) →
      SameUnless names (firstChosen f scope args) (firstChosen f inner args)
  | [] => .rfl
  | [fallback] => by
    rw [firstChosen, firstChosen]
    exact value_sameUnless f h fallback
  | [_, fallback] => by
    rw [firstChosen, firstChosen]
    exact value_sameUnless f h fallback
  | condition :: output :: x :: more => by
    rw [firstChosen, firstChosen]
    · refine (value_sameUnless f h condition).bind fun v => ?_
      split
      · exact value_sameUnless f h output
      · exact firstChosen_sameUnless f h (x :: more)
    all_goals simp

theorem selected_sameUnless (f : Feature) {scope inner : Scope}
    (h : scope.ExtendedBy names inner) :
    (args : List Json) → SameUnless names (selected f scope args) (selected f inner args)
  | [] => .rfl
  | input :: branches => by
    rw [selected, selected]
    exact (value_sameUnless f h input).bind fun v => firstLabelled_sameUnless f h v branches

theorem firstLabelled_sameUnless (f : Feature) {scope inner : Scope}
    (h : scope.ExtendedBy names inner) (input : Json) :
    (args : List Json) →
      SameUnless names (firstLabelled f scope input args) (firstLabelled f inner input args)
  | [] => .rfl
  | [fallback] => by
    rw [firstLabelled, firstLabelled]
    exact value_sameUnless f h fallback
  | [_, fallback] => by
    rw [firstLabelled, firstLabelled]
    exact value_sameUnless f h fallback
  | labels :: output :: x :: more => by
    rw [firstLabelled, firstLabelled]
    · split
      · exact value_sameUnless f h output
      · exact firstLabelled_sameUnless f h input (x :: more)
    all_goals simp

theorem bound_sameUnless (f : Feature) {scope inner : Scope}
    (h : scope.ExtendedBy names inner) (node : Json) {scope' inner' : Scope}
    (h' : scope'.ExtendedBy names inner') :
    (args : List Json) →
      SameUnless names (bound f scope node scope' args) (bound f inner node inner' args)
  | [] => .rfl
  | [body] => by
    rw [bound, bound]
    exact value_sameUnless f h' body
  | [_, _] => .rfl
  | .str name :: x :: y :: more => by
    rw [bound, bound]
    · exact (value_sameUnless f h x).bind fun v =>
        bound_sameUnless f h node (h'.bind name v) (y :: more)
    all_goals simp
  | .null :: _ :: _ :: _ | .bool _ :: _ :: _ :: _ | .num _ :: _ :: _ :: _
  | .arr _ :: _ :: _ :: _ | .obj _ :: _ :: _ :: _ => .rfl

end

end

/-! ## Expressions without free variables -/

/-- Every scope binds more than the one that binds nothing. -/
theorem Scope.extendedBy_of_empty (inner : Scope) :
    Scope.empty.ExtendedBy (fun _ => True) inner :=
  fun _ => .inr ⟨trivial, rfl⟩

/-- Tests that have an outcome where nothing is bound have it everywhere. -/
theorem allTrue_of_empty {f : Feature} {args : List Json} {b : Bool}
    (h : allTrue f .empty args = .ok b) (scope : Scope) : allTrue f scope args = .ok b := by
  rcases allTrue_sameUnless f (Scope.extendedBy_of_empty scope) args with heq | ⟨_, -, hfail⟩
  · rw [heq, h]
  · rw [h] at hfail
    cases hfail

end Chronomap.Filter.Expression
