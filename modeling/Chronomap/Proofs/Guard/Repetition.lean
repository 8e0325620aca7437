import Chronomap.Proofs.Guard.Variables

/-!
# Guarding a filter again

What guarding returns is a guard of the same dialect, so that a second period sets the first
guard and does not wrap it.  Of several complete periods only the last one is seen, whatever the
filter was to begin with:

    constrain (some (constrain filter q p)) q p' = constrain filter q p'    (constrain_constrain)
    constrainEach q filter ps = some (constrain filter q (ps.getLast ne))   (constrainEach_eq)
-/

namespace Chronomap.Filter

/-! ## Legacy filters -/

namespace Literal

/-- A complete period sets every limit. -/
theorem limits_set_set (limits : Limits) (side : Side) (p : Period) {p' : Period}
    (hp' : p'.Complete) : (limits.set side p).set side p' = limits.set side p' := by
  obtain ⟨d, hd⟩ := Option.isSome_iff_exists.1 (hp' ⟨side.opposite, .decimalYear⟩)
  obtain ⟨i, hi⟩ := Option.isSome_iff_exists.1 (hp' ⟨side.opposite, .isoDate⟩)
  simp only [Limits.set, hd, hi, Option.getD_some]

theorem guard_set_set (g : Guard) (p : Period) {p' : Period} (hp' : p'.Complete) :
    (g.set p).set p' = g.set p' := by
  simp only [Guard.set, limits_set_set _ _ p hp']

theorem constrain_constrain (filter : Option Json) (p : Period) {p' : Period}
    (hp' : p'.Complete) :
    constrain (some (constrain filter p)) p' = constrain filter p' := by
  by_cases h : IsGuard filter
  · obtain ⟨g, rfl⟩ := h
    rw [constrain_toFilter, constrain_toFilter, constrain_toFilter, guard_set_set g p hp']
  · rw [constrain_of_not_isGuard h, constrain_of_not_isGuard h, constrain_toFilter,
      guard_set_set _ p hp']

end Literal

/-! ## Expressions -/

namespace Variable

theorem bindsOwn_set {b : Binder} {q : Qualifier} (h : b.BindsOwn q) (p : Period) :
    (b.set q p).BindsOwn q := by
  obtain ⟨field, hfield⟩ := h
  exact ⟨field, mem_map_fst_assign.2 (.inr hfield)⟩

theorem bindsOwn_values {q : Qualifier} {p : Period} {field : Field}
    (h : (p.value? field).isSome) (body : Json) : Binder.BindsOwn q ⟨values q p, body⟩ := by
  obtain ⟨v, hv⟩ := Option.isSome_iff_exists.1 h
  refine ⟨field, List.mem_map.2 ⟨(name q field, v), List.mem_filterMap.2 ?_, rfl⟩⟩
  exact ⟨field, Field.mem_all field, by rw [hv]; rfl⟩

theorem binder_set_set (b : Binder) (q : Qualifier) {p p' : Period} (hp : p.Complete)
    (hp' : p'.Complete) : (b.set q p).set q p' = b.set q p' := by
  simp only [Binder.set, assign_values_assign_values hp hp']

/-- A new guard that is set to another period is the new guard of that period. -/
theorem values_set {q : Qualifier} {p p' : Period} (hp : p.Complete) (hp' : p'.Complete)
    (body : Json) : Binder.set ⟨values q p, body⟩ q p' = ⟨values q p', body⟩ := by
  have h : assign (values q p') (values q p) = values q p' := by
    calc assign (values q p') (values q p)
        = assign (values q p') (assign (values q p) []) := by rw [assign_nil nodup_values]
      _ = assign (values q p') [] := assign_values_assign_values hp hp'
      _ = values q p' := assign_nil nodup_values
  simp only [Binder.set, h]

theorem constrain_constrain (filter : Option Json) (q : Qualifier) {p p' : Period}
    (hp : p.Complete) (hp' : p'.Complete) :
    constrain (some (constrain filter q p)) q p' = constrain filter q p' := by
  by_cases h : IsGuard q filter
  · obtain ⟨b, rfl, hb⟩ := h
    rw [constrain_toFilter hb, constrain_toFilter hb, constrain_toFilter (bindsOwn_set hb p),
      binder_set_set b q hp hp']
  · have hown := bindsOwn_values (q := q) (hp ⟨.start, .isoDate⟩) (tests q (present filter))
    rw [constrain_of_not_isGuard h, constrain_of_not_isGuard h, constrain_toFilter hown,
      values_set hp hp']

end Variable

/-! ## Either dialect -/

theorem dialect_literal (filter : Option Json) (p : Period) :
    Dialect.ofFilter (some (Literal.constrain filter p)) = .legacy := dialect_guard _

theorem dialect_variable (filter : Option Json) (q : Qualifier) (p : Period) :
    Dialect.ofFilter (some (Variable.constrain filter q p)) = .expression := by
  unfold Variable.constrain
  simp only
  split
  · exact dialect_binder _
  · exact dialect_binder _

/-- A guarded filter is in the dialect of the filter. -/
theorem dialect_constrain (filter : Option Json) (q : Qualifier) (p : Period) :
    Dialect.ofFilter (some (constrain filter q p)) = Dialect.ofFilter filter := by
  unfold constrain
  cases Dialect.ofFilter filter with
  | legacy => exact dialect_literal filter p
  | expression => exact dialect_variable filter q p

theorem constrain_constrain (filter : Option Json) (q : Qualifier) {p p' : Period}
    (hp : p.Complete) (hp' : p'.Complete) :
    constrain (some (constrain filter q p)) q p' = constrain filter q p' := by
  have hd := dialect_constrain filter q p
  cases hf : Dialect.ofFilter filter with
  | legacy =>
    rw [hf] at hd
    simp only [constrain, hf] at hd ⊢
    rw [hd]
    exact Literal.constrain_constrain filter p hp'
  | expression =>
    rw [hf] at hd
    simp only [constrain, hf] at hd ⊢
    rw [hd]
    exact Variable.constrain_constrain filter q hp hp'

/-! ## Many periods -/

def constrainEach (q : Qualifier) (filter : Option Json) (ps : List Period) : Option Json :=
  ps.foldl (fun filter p => some (constrain filter q p)) filter

theorem constrainEach_cons (q : Qualifier) (filter : Option Json) (p : Period)
    (ps : List Period) :
    constrainEach q filter (p :: ps) = constrainEach q (some (constrain filter q p)) ps := rfl

theorem dialect_constrainEach (q : Qualifier) (filter : Option Json) (ps : List Period) :
    Dialect.ofFilter (constrainEach q filter ps) = Dialect.ofFilter filter := by
  induction ps generalizing filter with
  | nil => rfl
  | cons p ps ih => rw [constrainEach_cons, ih, dialect_constrain]

theorem constrainEach_getLast (q : Qualifier) (filter : Option Json) {ps : List Period}
    (ne : ps ≠ []) (hps : ∀ p ∈ ps, p.Complete) :
    constrainEach q filter ps = some (constrain filter q (ps.getLast ne)) := by
  induction ps generalizing filter with
  | nil => exact absurd rfl ne
  | cons p ps ih =>
    cases ps with
    | nil => rfl
    | cons p' ps =>
      have hrest : ∀ r ∈ p' :: ps, r.Complete := fun r hr => hps r (List.mem_cons_of_mem p hr)
      have hlast := hrest _ (List.getLast_mem (List.cons_ne_nil p' ps))
      rw [constrainEach_cons, ih _ (List.cons_ne_nil p' ps) hrest,
        constrain_constrain filter q (hps p List.mem_cons_self) hlast]
      rfl

/-- Of a run of complete periods the last one is seen, and the dialect never changes. -/
theorem constrainEach_eq (q : Qualifier) (filter : Option Json) {ps : List Period}
    (ne : ps ≠ []) (hps : ∀ p ∈ ps, p.Complete) :
    constrainEach q filter ps = some (constrain filter q (ps.getLast ne)) ∧
      ∀ k, Dialect.ofFilter (constrainEach q filter (ps.take k)) = Dialect.ofFilter filter :=
  ⟨constrainEach_getLast q filter ne hps, fun k => dialect_constrainEach q filter (ps.take k)⟩

/-- A guard that was edited by hand: a variable is bound twice, two are not bound, and the tests
are gone. -/
def editedGuard : Json :=
  .arr [.str "let", .str "mapdate__endISODate", .str "1850", .str "wanted", .str "primary",
    .str "mapdate__endISODate", .null, .arr [.str "has", .str "class"]]

theorem constrainEach_editedGuard :
    [Period.ofYear 1850, .ofYear 1912, .ofYear 2013] ≠ [] ∧
      (∀ p ∈ [Period.ofYear 1850, .ofYear 1912, .ofYear 2013], p.Complete) ∧
      constrainEach .standard (some editedGuard) [.ofYear 1850, .ofYear 1912, .ofYear 2013] =
        some (constrain (some editedGuard) .standard (.ofYear 2013)) := by
  have ne : [Period.ofYear 1850, .ofYear 1912, .ofYear 2013] ≠ [] := List.cons_ne_nil _ _
  have hps : ∀ p ∈ [Period.ofYear 1850, .ofYear 1912, .ofYear 2013], p.Complete := by
    intro p hp
    simp only [List.mem_cons, List.not_mem_nil, or_false] at hp
    rcases hp with rfl | rfl | rfl <;> exact Period.complete_ofYear (by decide)
  exact ⟨ne, hps, (constrainEach_eq .standard (some editedGuard) ne hps).1⟩

end Chronomap.Filter
