import Chronomap.Proofs.Guard.Repetition

/-!
# Towers of guards

Either way of guarding may be applied to any filter, with a qualifier of its own and a period of
which any value may be missing.  What stands around the filter that was there at first is then a
tower of guards, and every step looks at the outermost guard only:

    guardIn d (some (top.around inner)) q p = (top.set p).around inner,
      if `top` is a guard of dialect `d` and, in an expression, binds variables of `q`
                                                                             (guardIn_around)
    guardIn d filter q p = (Shell.fresh d q p).around (present filter),
      if `filter` is no such guard                                     (guardIn_of_not_isGuard)

So no run of steps changes or loses the filter that was there at first (`applyAll_tower`).
-/

namespace Chronomap.Filter

/-! ## Steps -/

/-- Guards a filter in a dialect that need not be its own. -/
def guardIn (d : Dialect) (filter : Option Json) (q : Qualifier) (p : Period) : Json :=
  match d with
  | .legacy => Literal.constrain filter p
  | .expression => Variable.constrain filter q p

theorem constrain_eq_guardIn (filter : Option Json) (q : Qualifier) (p : Period) :
    constrain filter q p = guardIn (Dialect.ofFilter filter) filter q p := rfl

/-- One guarding of a filter: in a given dialect, or in the one that the filter is written in. -/
structure Step where
  forced : Option Dialect
  qualifier : Qualifier
  period : Period

def Step.dialect (step : Step) (filter : Option Json) : Dialect :=
  step.forced.getD (Dialect.ofFilter filter)

def Step.apply (step : Step) (filter : Option Json) : Json :=
  match step.forced with
  | none => constrain filter step.qualifier step.period
  | some .legacy => Literal.constrain filter step.period
  | some .expression => Variable.constrain filter step.qualifier step.period

def applyAll (filter : Option Json) (steps : List Step) : Option Json :=
  steps.foldl (fun filter step => some (step.apply filter)) filter

theorem apply_eq_guardIn (step : Step) (filter : Option Json) :
    step.apply filter = guardIn (step.dialect filter) filter step.qualifier step.period := by
  obtain ⟨forced, q, p⟩ := step
  cases forced with
  | none => exact constrain_eq_guardIn filter q p
  | some d => cases d <;> rfl

/-! ## Shells -/

/-- Variables of a qualifier bound to values, each of them once. -/
structure Bindings (q : Qualifier) where
  members : Json.Members
  distinct : (members.map Prod.fst).Nodup
  own : ∀ key ∈ members.map Prod.fst, ∃ field, key = Variable.name q field

namespace Bindings

variable {q : Qualifier}

def ofPeriod (q : Qualifier) (p : Period) : Bindings q where
  members := Variable.values q p
  distinct := Variable.nodup_values
  own key hkey := by
    obtain ⟨m, hm, rfl⟩ := List.mem_map.1 hkey
    exact Variable.eq_name_of_mem_values hm

def set (bindings : Bindings q) (p : Period) : Bindings q where
  members := Variable.assign (Variable.values q p) bindings.members
  distinct := Variable.nodup_assign bindings.distinct
  own key hkey := by
    rcases Variable.mem_map_fst_assign.1 hkey with hnew | hold
    · exact (ofPeriod q p).own key hnew
    · exact bindings.own key hold

theorem bindsOwn_of_ne_nil {bindings : Bindings q} (ne : bindings.members ≠ []) (body : Json) :
    Variable.Binder.BindsOwn q ⟨bindings.members, body⟩ := by
  obtain ⟨m, hm⟩ := List.exists_mem_of_ne_nil _ ne
  have hkey : m.1 ∈ bindings.members.map Prod.fst := List.mem_map_of_mem hm
  obtain ⟨field, hfield⟩ := bindings.own m.1 hkey
  exact ⟨field, hfield ▸ hkey⟩

end Bindings

/-- A guard without the filter that it guards. -/
inductive Shell where
  | legacy (start finish : Literal.Limits)
  | expression (q : Qualifier) (bindings : Bindings q)

namespace Shell

def around : Shell → Option Json → Json
  | legacy start finish, inner => Literal.Guard.toFilter ⟨start, finish, inner⟩
  | expression q bindings, inner =>
    Variable.Binder.toFilter ⟨bindings.members, Variable.tests q inner⟩

/-- Whether a shell is a guard of a dialect and, in an expression, binds variables of a
qualifier. -/
def Fits (d : Dialect) (q : Qualifier) : Shell → Prop
  | legacy _ _ => d = .legacy
  | expression q' bindings => d = .expression ∧ q = q' ∧ bindings.members ≠ []

/-- Whether two shells differ in nothing but the values of a period, which the second one has:
its literals, or the values of its variables.  Variables that the first one does not bind come
last. -/
inductive SetTo (p : Period) : Shell → Shell → Prop
  | legacy (start finish : Literal.Limits) :
      SetTo p (legacy start finish) (legacy (start.set .start p) (finish.set .finish p))
  | expression {q : Qualifier} {before after : Bindings q}
      (keys : before.members.map Prod.fst <+: after.members.map Prod.fst)
      (values : ∀ field, Json.Members.get? (Variable.name q field) after.members =
        (p.value? field).or (Json.Members.get? (Variable.name q field) before.members)) :
      SetTo p (expression q before) (expression q after)

def fresh (d : Dialect) (q : Qualifier) (p : Period) : Shell :=
  match d with
  | .legacy => legacy (Literal.Limits.set ⟨.null, .null⟩ .start p)
      (Literal.Limits.set ⟨.null, .null⟩ .finish p)
  | .expression => expression q (.ofPeriod q p)

def set (p : Period) : Shell → Shell
  | legacy start finish => legacy (start.set .start p) (finish.set .finish p)
  | expression q bindings => expression q (bindings.set p)

theorem setTo_set (p : Period) (top : Shell) : SetTo p top (top.set p) := by
  cases top with
  | legacy start finish => exact .legacy start finish
  | expression q bindings =>
    exact .expression Variable.map_fst_prefix_assign fun field => Variable.get?_assign_values field

theorem present_around (top : Shell) (inner : Option Json) :
    present (some (top.around inner)) = some (top.around inner) := by
  cases top with
  | legacy start finish => exact present_call _ _
  | expression q bindings => exact present_call _ _

end Shell

/-! ## Towers -/

/-- A filter in shells, the outermost of which comes first. -/
def tower : List Shell → Option Json → Option Json
  | [], inner => inner
  | top :: rest, inner => some (top.around (tower rest inner))

/-- A filter is a guard of a dialect and, in an expression, binds a variable of a qualifier. -/
def IsGuard (d : Dialect) (q : Qualifier) (filter : Option Json) : Prop :=
  match d with
  | .legacy => Literal.IsGuard filter
  | .expression => Variable.IsGuard q filter

/-- A guard of one dialect is no guard of the other. -/
theorem binder_ne_guard (b : Variable.Binder) (g : Literal.Guard) : b.toFilter ≠ g.toFilter := by
  intro h
  have hd := dialect_binder b
  rw [h, dialect_guard] at hd
  cases hd

theorem isGuard_around (d : Dialect) (q : Qualifier) (top : Shell) (inner : Option Json) :
    IsGuard d q (some (top.around inner)) ↔ top.Fits d q := by
  cases top with
  | legacy start finish =>
    cases d with
    | legacy => exact ⟨fun _ => rfl, fun _ => ⟨_, rfl⟩⟩
    | expression =>
      constructor
      · rintro ⟨b, hb, -⟩
        exact absurd (Option.some.inj hb).symm (binder_ne_guard b _)
      · intro h
        cases h
  | expression q' bindings =>
    cases d with
    | legacy =>
      constructor
      · rintro ⟨g, hg⟩
        exact absurd (Option.some.inj hg) (binder_ne_guard _ g)
      · rintro ⟨h, -⟩
        cases h
    | expression =>
      constructor
      · rintro ⟨b, hb, field, hfield⟩
        obtain rfl := Variable.toFilter_inj (Option.some.inj hb)
        obtain ⟨field', hown⟩ := bindings.own _ hfield
        have ne : bindings.members ≠ [] := by
          intro hnil
          rw [hnil] at hfield
          cases hfield
        exact ⟨rfl, (Variable.name_inj hown).1, ne⟩
      · rintro ⟨-, rfl, ne⟩
        exact ⟨_, rfl, Bindings.bindsOwn_of_ne_nil ne _⟩

/-- A guard that fits is set to the period. -/
theorem guardIn_around {d : Dialect} {q : Qualifier} {top : Shell} (h : top.Fits d q)
    (inner : Option Json) (p : Period) :
    guardIn d (some (top.around inner)) q p = (top.set p).around inner := by
  cases top with
  | legacy start finish =>
    obtain rfl : d = .legacy := h
    exact Literal.constrain_toFilter ⟨start, finish, inner⟩ p
  | expression q' bindings =>
    obtain ⟨rfl, rfl, ne⟩ := h
    exact Variable.constrain_toFilter (Bindings.bindsOwn_of_ne_nil ne _) p

/-- Every other filter gets a new guard around it. -/
theorem guardIn_of_not_isGuard {d : Dialect} {q : Qualifier} {filter : Option Json}
    (h : ¬ IsGuard d q filter) (p : Period) :
    guardIn d filter q p = (Shell.fresh d q p).around (present filter) := by
  cases d with
  | legacy => exact Literal.constrain_of_not_isGuard h p
  | expression => exact Variable.constrain_of_not_isGuard h p

theorem isGuard_present {d : Dialect} {q : Qualifier} {filter : Option Json} :
    IsGuard d q (present filter) ↔ IsGuard d q filter := by
  cases d with
  | legacy => exact Literal.isGuard_present
  | expression => exact Variable.isGuard_present

theorem guardIn_present (d : Dialect) (filter : Option Json) (q : Qualifier) (p : Period) :
    guardIn d (present filter) q p = guardIn d filter q p := by
  rcases present_eq filter with h | ⟨h, hnull⟩
  · rw [h]
  · rw [h, hnull]
    cases d <;> rfl

theorem present_tower (shells : List Shell) (filter : Option Json) :
    present (tower shells (present filter)) = tower shells (present filter) := by
  cases shells with
  | nil =>
    rcases present_eq filter with h | ⟨h, -⟩
    · rw [tower, h, h]
    · rw [tower, h]
      rfl
  | cons top rest => exact top.present_around _

/-! ## Runs -/

/-- What a guarding does to the shells of a tower: it sets the outermost one to the period, if
this one fits, and adds one shell otherwise. -/
inductive Effect (d : Dialect) (q : Qualifier) (p : Period) : List Shell → List Shell → Prop
  | change {top top' : Shell} (rest : List Shell) (fits : top.Fits d q) (set : top.SetTo p top') :
      Effect d q p (top :: rest) (top' :: rest)
  | add (shells : List Shell) (unfit : ∀ top ∈ shells.head?, ¬ top.Fits d q) :
      Effect d q p shells (Shell.fresh d q p :: shells)

/-- A tower around a filter that is no guard is a guard if its outermost shell is one. -/
theorem isGuard_tower {filter : Option Json} (h : ∀ d q, ¬ IsGuard d q filter) (d : Dialect)
    (q : Qualifier) (shells : List Shell) :
    IsGuard d q (tower shells (present filter)) ↔ ∃ top ∈ shells.head?, top.Fits d q := by
  cases shells with
  | nil =>
    rw [tower, isGuard_present]
    constructor
    · intro hguard
      exact absurd hguard (h d q)
    · rintro ⟨top, htop, -⟩
      cases htop
  | cons top rest =>
    rw [tower, isGuard_around]
    constructor
    · intro hfits
      exact ⟨top, rfl, hfits⟩
    · rintro ⟨top', htop, hfits⟩
      obtain rfl := Option.some.inj htop
      exact hfits

/-- What a guarding does to a tower around a filter that is no guard. -/
theorem guardIn_tower {filter : Option Json} (h : ∀ d q, ¬ IsGuard d q filter) (d : Dialect)
    (q : Qualifier) (p : Period) (shells : List Shell) :
    ∃ after, Effect d q p shells after ∧
      some (guardIn d (tower shells (present filter)) q p) = tower after (present filter) := by
  by_cases hfits : ∃ top ∈ shells.head?, top.Fits d q
  · obtain ⟨top, htop, hfits⟩ := hfits
    obtain ⟨rest, rfl⟩ := List.head?_eq_some_iff.1 htop
    refine ⟨top.set p :: rest, .change rest hfits (Shell.setTo_set p top), ?_⟩
    rw [tower, guardIn_around hfits, tower]
  · have hguard := mt (isGuard_tower h d q shells).1 hfits
    have unfit : ∀ top ∈ shells.head?, ¬ top.Fits d q := by
      intro top htop hfit
      exact hfits ⟨top, htop, hfit⟩
    refine ⟨Shell.fresh d q p :: shells, .add shells unfit, ?_⟩
    rw [guardIn_of_not_isGuard hguard, present_tower, tower]

theorem applyAll_cons (filter : Option Json) (step : Step) (steps : List Step) :
    applyAll filter (step :: steps) = applyAll (some (step.apply filter)) steps := rfl

/-- Steps that start at a tower keep to towers around the same filter. -/
theorem applyAll_of_tower {filter : Option Json} (h : ∀ d q, ¬ IsGuard d q filter)
    (steps : List Step) (before : Option Json) (start : List Shell)
    (hbefore : present before = tower start (present filter)) :
    ∃ shells : Nat → List Shell, shells 0 = start ∧
      ∀ (k : Nat) (hk : k < steps.length),
        applyAll before (steps.take (k + 1)) = tower (shells (k + 1)) (present filter) ∧
          Effect (steps[k].dialect (applyAll before (steps.take k))) steps[k].qualifier
            steps[k].period (shells k) (shells (k + 1)) := by
  induction steps generalizing before start with
  | nil => exact ⟨fun _ => start, rfl, fun k hk => absurd hk (Nat.not_lt_zero k)⟩
  | cons step steps ih =>
    obtain ⟨after, heffect, hafter⟩ :=
      guardIn_tower h (step.dialect before) step.qualifier step.period start
    have hstep : some (step.apply before) = tower after (present filter) := by
      rw [apply_eq_guardIn, ← guardIn_present, hbefore, hafter]
    have hpresent : present (some (step.apply before)) = tower after (present filter) := by
      rw [hstep, present_tower]
    obtain ⟨shells, hzero, hshells⟩ := ih (some (step.apply before)) after hpresent
    -- The shells after the first step are those of the run that is left.
    refine ⟨fun | 0 => start | k + 1 => shells k, rfl, ?_⟩
    intro k hk
    cases k with
    | zero =>
      simp only [hzero]
      exact ⟨hstep, heffect⟩
    | succ k =>
      rw [List.take_succ_cons, List.take_succ_cons, applyAll_cons, applyAll_cons]
      exact hshells k (Nat.lt_of_succ_lt_succ hk)

/-- Whatever steps are taken from a filter that is no guard, it stays as it was, and every step
sets the outermost guard around it or adds one. -/
theorem applyAll_tower {filter : Option Json} (hl : ¬ Literal.IsGuard filter)
    (hv : ∀ q, ¬ Variable.IsGuard q filter) (steps : List Step) :
    ∃ shells : Nat → List Shell, shells 0 = [] ∧
      ∀ (k : Nat) (hk : k < steps.length),
        applyAll filter (steps.take (k + 1)) = tower (shells (k + 1)) (present filter) ∧
          Effect (steps[k].dialect (applyAll filter (steps.take k))) steps[k].qualifier
            steps[k].period (shells k) (shells (k + 1)) := by
  have h : ∀ d q, ¬ IsGuard d q filter := by
    intro d q
    cases d with
    | legacy => exact hl
    | expression => exact hv q
  exact applyAll_of_tower h steps filter [] rfl

/-- A legacy guard without any value, a guard of an expression around it, and a step that sets the
outer guard to another period. -/
def mixedSteps : List Step :=
  [⟨some .legacy, .standard, ⟨⟨none, none, none⟩, ⟨none, none, none⟩⟩⟩,
    ⟨some .expression, .standard, .ofYear 1850⟩, ⟨none, .standard, .ofYear 1912⟩]

theorem applyAll_tower_mixedSteps :
    ¬ Literal.IsGuard (some (call "has" [.str "class"])) ∧
      (∀ q, ¬ Variable.IsGuard q (some (call "has" [.str "class"]))) ∧
      ∃ shells, applyAll (some (call "has" [.str "class"])) mixedSteps =
        tower shells (some (call "has" [.str "class"])) := by
  have hl : ¬ Literal.IsGuard (some (call "has" [.str "class"])) := by decide
  have hv : ∀ q, ¬ Variable.IsGuard q (some (call "has" [.str "class"])) := by
    rintro q ⟨b, hb, -⟩
    have hread := Variable.ofFilter?_toFilter b
    rw [← Option.some.inj hb] at hread
    cases hread
  obtain ⟨shells, -, hshells⟩ := applyAll_tower hl hv mixedSteps
  exact ⟨hl, hv, shells 3, (hshells 2 (by decide)).1⟩

end Chronomap.Filter
