import Chronomap.Proofs.Guard.Meaning
import Chronomap.Proofs.Guard.Repetition

/-!
# Periods that lack values

A guard that is set to a period keeps what the period has no value for.  So two periods after each
other are one period, the later one with the values of the earlier one where it has none of its
own:

    Literal.constrain (some (Literal.constrain filter p)) p' =
      Literal.constrain filter (p'.orElse p)                 (Literal.constrain_constrain_orElse)

In an expression the same holds of every variable (`Variable.sameUpToOrder_assign`).  Only the
order in which new variables are bound can differ, and it does not change any outcome
(`Variable.value_toFilter_congr`).
-/

namespace Chronomap

/-- An end with the values of another one where it has none of its own. -/
def Endpoint.orElse (e other : Endpoint) : Endpoint where
  instant := e.instant.or other.instant
  decimalYear := e.decimalYear.or other.decimalYear
  isoDate := e.isoDate.or other.isoDate

/-- A period with the values of another one where it has none of its own. -/
def Period.orElse (p other : Period) : Period where
  start := p.start.orElse other.start
  finish := p.finish.orElse other.finish

theorem Period.value?_orElse (p other : Period) (field : Filter.Field) :
    (p.orElse other).value? field = (p.value? field).or (other.value? field) := by
  have map_or : ∀ {α : Type} (x y : Option α) (toJson : α → Json),
      (x.or y).map toJson = (x.map toJson).or (y.map toJson) := by
    intro α x y toJson
    cases x <;> rfl
  obtain ⟨side, scale⟩ := field
  cases side <;> cases scale <;> exact map_or _ _ _

namespace Filter

/-! ## Legacy filters -/

namespace Literal

theorem limits_set_orElse (limits : Limits) (side : Side) (p p' : Period) :
    (limits.set side p).set side p' = limits.set side (p'.orElse p) := by
  simp only [Limits.set, Period.value?_orElse, Option.getD_or]

theorem guard_set_orElse (g : Guard) (p p' : Period) :
    (g.set p).set p' = g.set (p'.orElse p) := by
  simp only [Guard.set, limits_set_orElse]

theorem constrain_constrain_orElse (filter : Option Json) (p p' : Period) :
    constrain (some (constrain filter p)) p' = constrain filter (p'.orElse p) := by
  by_cases h : IsGuard filter
  · obtain ⟨g, rfl⟩ := h
    rw [constrain_toFilter, constrain_toFilter, constrain_toFilter, guard_set_orElse]
  · rw [constrain_of_not_isGuard h, constrain_of_not_isGuard h, constrain_toFilter,
      guard_set_orElse]

end Literal

/-! ## Expressions -/

namespace Variable

open Expression Json.Members

/-- The values of both periods, name by name. -/
theorem get?_values_orElse (key : String) (q : Qualifier) (p p' : Period) :
    get? key (values q (p'.orElse p)) = (get? key (values q p')).or (get? key (values q p)) := by
  by_cases hkey : ∃ field, key = name q field
  · obtain ⟨field, rfl⟩ := hkey
    rw [get?_values, get?_values, get?_values, Period.value?_orElse]
  · have hnone : ∀ r : Period, get? key (values q r) = none := fun r =>
      get?_values_eq_none fun field heq => absurd ⟨field, heq⟩ hkey
    rw [hnone, hnone, hnone]
    rfl

/-- Setting two periods binds what setting both at once does. -/
theorem sameUpToOrder_assign (q : Qualifier) (p p' : Period) (bindings : Json.Members) :
    SameUpToOrder (assign (values q p') (assign (values q p) bindings))
      (assign (values q (p'.orElse p)) bindings) := by
  intro key
  rw [ofKey_assign nodup_values, ofKey_assign nodup_values, ofKey_assign nodup_values,
    get?_values_orElse]
  cases get? key (values q p') with
  | none => rfl
  | some v' =>
    cases get? key (values q p) with
    | none => rfl
    | some v => exact insert_insert key v v' _

/-! ## Bindings that were added -/

/-- The names in front are the given ones, and all bindings behind them are to values that mean
themselves. -/
def Extends (names : List String) (bindings : Json.Members) : Prop :=
  ∃ front back, bindings = front ++ back ∧ front.map Prod.fst = names ∧
    ∀ m ∈ back, ∀ f scope, value f scope m.2 = .ok m.2

section

variable {names : List String} {bindings bindings' : Json.Members}

theorem extends_self : Extends (bindings.map Prod.fst) bindings :=
  ⟨bindings, [], (List.append_nil _).symm, rfl, by simp⟩

/-- A name in front is bound anew in its place, and any other name behind. -/
theorem Extends.insert {key : String} {v : Json} (h : Extends names bindings)
    (hv : ∀ f scope, value f scope v = .ok v) :
    Extends names (Json.Members.insert key v bindings) := by
  obtain ⟨front, back, rfl, hfront, hback⟩ := h
  by_cases hkey : key ∈ front.map Prod.fst
  · refine ⟨Json.Members.insert key v front, back, insert_append_of_mem hkey, ?_, hback⟩
    rw [map_fst_insert_of_mem hkey, hfront]
  · refine ⟨front, Json.Members.insert key v back, insert_append_of_not_mem hkey, hfront, ?_⟩
    intro m hm
    rcases eq_or_mem_of_mem_insert hm with rfl | hold
    · exact hv
    · exact hback m hold

theorem Extends.assign {new : Json.Members} (h : Extends names bindings)
    (hnew : ∀ m ∈ new, ∀ f scope, value f scope m.2 = .ok m.2) :
    Extends names (assign new bindings) := by
  induction new generalizing bindings with
  | nil => exact h
  | cons m rest ih =>
    rw [assign_cons]
    exact ih (h.insert (hnew m List.mem_cons_self))
      fun m' hm' => hnew m' (List.mem_cons_of_mem m hm')

theorem Extends.assign_values (h : Extends names bindings) (q : Qualifier) (p : Period) :
    Extends names (Variable.assign (values q p) bindings) :=
  h.assign fun _ hm f scope => value_of_mem_values hm f scope

/-! ## Outcomes -/

theorem bindValues_append (f : Feature) (scope inner : Scope) (front back : Json.Members) :
    bindValues f scope inner (front ++ back) =
      (do bindValues f scope (← bindValues f scope inner front) back) := by
  induction front generalizing inner with
  | nil => rfl
  | cons m rest ih =>
    rw [List.cons_append, bindValues, bindValues]
    cases value f scope m.2 with
    | error e => rfl
    | ok v => exact ih _

/-- The value of a name depends on the bindings of this name only. -/
theorem bindAll_ofKey {scope scope' : Scope} {key : String} (h : scope key = scope' key) :
    bindAll scope bindings key = bindAll scope' (ofKey key bindings) key := by
  induction bindings generalizing scope scope' with
  | nil => exact h
  | cons m rest ih =>
    show bindAll (scope.bind m.1 m.2) rest key = _
    by_cases hk : m.1 = key
    · subst hk
      rw [ofKey_cons_self]
      exact ih (by simp [Scope.bind])
    · rw [ofKey_cons_of_ne hk]
      exact ih (by rw [Scope.bind, if_neg (Ne.symm hk), h])

theorem bindAll_congr (h : SameUpToOrder bindings bindings') (scope : Scope) :
    bindAll scope bindings = bindAll scope bindings' := by
  funext key
  have hleft : bindAll scope bindings key = bindAll scope (ofKey key bindings) key :=
    bindAll_ofKey rfl
  have hright : bindAll scope bindings' key = bindAll scope (ofKey key bindings') key :=
    bindAll_ofKey rfl
  rw [hleft, hright, h key]

/-- The order of bindings that were added to the same ones does not matter, not even for the
failures of the bindings in front. -/
theorem value_toFilter_congr (h : Extends names bindings) (h' : Extends names bindings')
    (hsame : SameUpToOrder bindings bindings') (f : Feature) (scope : Scope) (body : Json) :
    value f scope (Binder.toFilter ⟨bindings, body⟩) =
      value f scope (Binder.toFilter ⟨bindings', body⟩) := by
  obtain ⟨front, back, rfl, hfront, hback⟩ := h
  obtain ⟨front', back', rfl, hfront', hback'⟩ := h'
  obtain ⟨rfl, hbacks⟩ := hsame.of_append (hfront.trans hfront'.symm)
  show bound f scope _ scope (binderArgs body (front ++ back)) =
    bound f scope _ scope (binderArgs body (front ++ back'))
  rw [bound_binderArgs, bound_binderArgs, bindValues_append, bindValues_append]
  cases bindValues f scope scope front with
  | error e => rfl
  | ok inner =>
    show (do value f (← bindValues f scope inner back) body) =
      (do value f (← bindValues f scope inner back') body)
    rw [bindValues_eq_bindAll fun m hm => hback m hm f scope,
      bindValues_eq_bindAll fun m hm => hback' m hm f scope, bindAll_congr hbacks]

theorem passes_toFilter_congr (h : Extends names bindings) (h' : Extends names bindings')
    (hsame : SameUpToOrder bindings bindings') (f : Feature) (body : Json) :
    passes f (Binder.toFilter ⟨bindings, body⟩) = passes f (Binder.toFilter ⟨bindings', body⟩) := by
  rw [passes_binder, passes_binder, value_toFilter_congr h h' hsame]

end

/-! ## Guards as binders that are set -/

/-- A guard is a binder that is set to the period; a new one is set from no bindings. -/
theorem exists_binder (filter : Option Json) (q : Qualifier) :
    ∃ b : Binder, (∀ p, constrain filter q p = (b.set q p).toFilter) ∧
      (IsGuard q filter → b.BindsOwn q) := by
  by_cases h : IsGuard q filter
  · obtain ⟨b, rfl, hb⟩ := h
    exact ⟨b, constrain_toFilter hb, fun _ => hb⟩
  · refine ⟨⟨[], tests q (present filter)⟩, ?_, fun hguard => absurd hguard h⟩
    intro p
    rw [constrain_of_not_isGuard h, Binder.set, assign_nil nodup_values]

/-- A binder that is set to a period binds the variables that the period has a value for. -/
theorem bindsOwn_set_of_isSome {q : Qualifier} {p : Period} {field : Field}
    (h : (p.value? field).isSome) (b : Binder) : (b.set q p).BindsOwn q := by
  obtain ⟨field', hfield'⟩ := bindsOwn_values (q := q) h b.body
  exact ⟨field', mem_map_fst_assign.2 (.inl hfield')⟩

end Variable

/-! ## Either dialect -/

/-- Two periods after each other set what one period sets that has the later values and, where
they are missing, the earlier ones. -/
theorem constrain_constrain_missing (filter : Option Json) (p p' : Period) :
    Literal.constrain (some (Literal.constrain filter p)) p' =
        Literal.constrain filter (p'.orElse p) ∧
      ∀ q, Variable.IsGuard q filter ∨ (∃ field, (p.value? field).isSome) →
        ∃ body bindings bindings',
          Variable.constrain (some (Variable.constrain filter q p)) q p' =
            Variable.Binder.toFilter ⟨bindings, body⟩ ∧
          Variable.constrain filter q (p'.orElse p) =
            Variable.Binder.toFilter ⟨bindings', body⟩ ∧
          Json.Members.SameUpToOrder bindings bindings' ∧
          ∀ f, passes f (Variable.constrain (some (Variable.constrain filter q p)) q p') =
            passes f (Variable.constrain filter q (p'.orElse p)) := by
  refine ⟨Literal.constrain_constrain_orElse filter p p', ?_⟩
  intro q hown
  obtain ⟨b, hset, hguard⟩ := Variable.exists_binder filter q
  have hbinds : (b.set q p).BindsOwn q := by
    rcases hown with h | ⟨field, h⟩
    · exact Variable.bindsOwn_set (hguard h) p
    · exact Variable.bindsOwn_set_of_isSome h b
  have htwice : Variable.constrain (some (Variable.constrain filter q p)) q p' =
      ((b.set q p).set q p').toFilter := by
    rw [hset p, Variable.constrain_toFilter hbinds]
  have hsame := Variable.sameUpToOrder_assign q p p' b.bindings
  -- Both ways set the same binder, in which new variables may stand in different orders.
  refine ⟨b.body, _, _, htwice, hset (p'.orElse p), hsame, ?_⟩
  intro f
  have hstart : Variable.Extends (b.bindings.map Prod.fst) b.bindings := Variable.extends_self
  rw [htwice, hset (p'.orElse p)]
  exact Variable.passes_toFilter_congr ((hstart.assign_values q p).assign_values q p')
    (hstart.assign_values q (p'.orElse p)) hsame f b.body

def endOnly : Period := ⟨⟨none, none, none⟩, ⟨none, none, some "2014-01-01"⟩⟩

def startOnly : Period := ⟨⟨none, some 2013.0, none⟩, ⟨none, none, none⟩⟩

/-- A feature that is compared with the decimal year of the end. -/
def startedIn1900 : Feature := ⟨none, none, [("start_decdate", .ofFloat 1900.0)]⟩

theorem constrain_constrain_missing_decimalYear :
    (Variable.IsGuard .standard none ∨ ∃ field, (endOnly.value? field).isSome) ∧
      passes startedIn1900
          (Variable.constrain (some (Variable.constrain none .standard endOnly)) .standard
            startOnly) =
        .error (.unbound "mapdate__endDecimalYear") := by
  have hown : Variable.IsGuard .standard none ∨ ∃ field, (endOnly.value? field).isSome :=
    .inr ⟨⟨.finish, .isoDate⟩, rfl⟩
  obtain ⟨_, _, _, -, -, -, hpasses⟩ :=
    (constrain_constrain_missing none endOnly startOnly).2 .standard hown
  exact ⟨hown, (hpasses startedIn1900).trans rfl⟩

end Filter

end Chronomap
