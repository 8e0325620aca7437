import Chronomap.Proofs.Guard.Meaning
import Chronomap.Proofs.Guard.Towers

/-!
# Guards with different qualifiers

An expression may be guarded by several periods in turn, each with a qualifier of its own.  A turn
sets the guard of the turn before it if both have one qualifier, and adds a guard otherwise, so
what stands around the expression in the end is one guard for each run of turns with one qualifier,
set to the last period of the run:

    present (constrainAll filter turns) =
      tower ((lastTurns turns).reverse.map Turn.shell) (present filter)     (present_constrainAll)

No guard hides, catches or changes a variable of another qualifier, and a feature passes all of
them if its lifespan overlaps each of the periods (`passes_constrainAll`).
-/

namespace Chronomap.Filter

/-! ## Turns -/

/-- A period to guard a filter by, and the qualifier of the guard. -/
structure Turn where
  qualifier : Qualifier
  period : Period

def constrainAll (filter : Option Json) (turns : List Turn) : Option Json :=
  turns.foldl (fun filter turn => some (constrain filter turn.qualifier turn.period)) filter

theorem constrainAll_cons (filter : Option Json) (turn : Turn) (turns : List Turn) :
    constrainAll filter (turn :: turns) =
      constrainAll (some (constrain filter turn.qualifier turn.period)) turns := rfl

theorem dialect_constrainAll (filter : Option Json) (turns : List Turn) :
    Dialect.ofFilter (constrainAll filter turns) = Dialect.ofFilter filter := by
  induction turns generalizing filter with
  | nil => rfl
  | cons turn turns ih => rw [constrainAll_cons, ih, dialect_constrain]

/-- The turns that end a run of turns with one qualifier. -/
def lastTurns : List Turn → List Turn
  | [] => []
  | [turn] => [turn]
  | turn :: next :: turns =>
    if turn.qualifier = next.qualifier then lastTurns (next :: turns)
    else turn :: lastTurns (next :: turns)

/-- A turn ends a run if no turn follows it or the next one has another qualifier. -/
theorem mem_lastTurns_iff {turns : List Turn} {turn : Turn} :
    turn ∈ lastTurns turns ↔
      ∃ before after, turns = before ++ turn :: after ∧
        ∀ next ∈ after.head?, turn.qualifier ≠ next.qualifier := by
  induction turns using lastTurns.induct with
  | case1 => simp [lastTurns]
  | case2 first =>
    rw [lastTurns, List.mem_singleton]
    constructor
    · rintro rfl
      exact ⟨[], [], rfl, by simp⟩
    · rintro ⟨before, after, heq, -⟩
      cases before with
      | nil => exact (List.cons.inj heq).1.symm
      | cons _ before => simp at heq
  | case3 first next turns hsame ih =>
    -- The first turn is followed by one with its qualifier, so it ends no run.
    rw [lastTurns, if_pos hsame, ih]
    constructor
    · rintro ⟨before, after, heq, hafter⟩
      exact ⟨first :: before, after, by rw [heq, List.cons_append], hafter⟩
    · rintro ⟨before, after, heq, hafter⟩
      cases before with
      | nil =>
        obtain ⟨rfl, rfl⟩ := List.cons.inj heq
        exact absurd hsame (hafter next rfl)
      | cons _ before => exact ⟨before, after, (List.cons.inj heq).2, hafter⟩
  | case4 first next turns hother ih =>
    -- The first turn ends a run of its own.
    rw [lastTurns, if_neg hother, List.mem_cons, ih]
    constructor
    · rintro (rfl | ⟨before, after, heq, hafter⟩)
      · refine ⟨[], next :: turns, rfl, ?_⟩
        rintro _ ⟨⟩
        exact hother
      · exact ⟨first :: before, after, by rw [heq, List.cons_append], hafter⟩
    · rintro ⟨before, after, heq, hafter⟩
      cases before with
      | nil => exact .inl (List.cons.inj heq).1.symm
      | cons _ before => exact .inr ⟨before, after, (List.cons.inj heq).2, hafter⟩

theorem complete_of_mem_lastTurns {turns : List Turn} (h : ∀ turn ∈ turns, turn.period.Complete) :
    ∀ turn ∈ lastTurns turns, turn.period.Complete := by
  intro turn hturn
  obtain ⟨before, after, rfl, -⟩ := mem_lastTurns_iff.1 hturn
  exact h turn (List.mem_append_right before List.mem_cons_self)

/-! ## Guards that are left -/

/-- The guard of a turn, without the filter that it guards. -/
def Turn.shell (turn : Turn) : Shell :=
  .expression turn.qualifier (.ofPeriod turn.qualifier turn.period)

theorem tower_append (outer inner : List Shell) (filter : Option Json) :
    tower (outer ++ inner) filter = tower outer (tower inner filter) := by
  induction outer with
  | nil => rfl
  | cons top rest ih => rw [List.cons_append, tower, ih, tower]

theorem around_shell (turn : Turn) (inner : Option Json) :
    turn.shell.around inner = Variable.Binder.toFilter
      ⟨Variable.values turn.qualifier turn.period, Variable.tests turn.qualifier inner⟩ := rfl

theorem dialect_shell (turn : Turn) (inner : Option Json) :
    Dialect.ofFilter (some (turn.shell.around inner)) = .expression := dialect_binder _

/-- A turn with the qualifier of the guard sets the guard to its period. -/
theorem constrain_shell_of_eq {turn next : Turn} (h : turn.qualifier = next.qualifier)
    (hturn : turn.period.Complete) (hnext : next.period.Complete) (inner : Option Json) :
    constrain (some (turn.shell.around inner)) next.qualifier next.period =
      next.shell.around inner := by
  obtain ⟨q, p⟩ := turn
  obtain ⟨_, p'⟩ := next
  obtain rfl : q = _ := h
  have hown : Variable.Binder.BindsOwn q ⟨Variable.values q p, Variable.tests q inner⟩ :=
    Variable.bindsOwn_values (hturn ⟨.start, .isoDate⟩) _
  rw [constrain_eq_guardIn, dialect_shell, around_shell, around_shell]
  show Variable.constrain _ q p' = _
  rw [Variable.constrain_toFilter hown, Variable.values_set hturn hnext]

/-- A turn with another qualifier puts its guard around. -/
theorem constrain_shell_of_ne {turn next : Turn} (h : turn.qualifier ≠ next.qualifier)
    (inner : Option Json) :
    constrain (some (turn.shell.around inner)) next.qualifier next.period =
      next.shell.around (some (turn.shell.around inner)) := by
  have hguard : ¬ IsGuard .expression next.qualifier (some (turn.shell.around inner)) := by
    rw [isGuard_around]
    rintro ⟨-, heq, -⟩
    exact h heq.symm
  rw [constrain_eq_guardIn, dialect_shell, guardIn_of_not_isGuard hguard, Shell.present_around]
  rfl

/-- What the turns after the first one make of its guard. -/
theorem constrainAll_shell (turns : List Turn) (turn : Turn)
    (hp : ∀ t ∈ turn :: turns, t.period.Complete) (inner : Option Json) :
    constrainAll (some (turn.shell.around inner)) turns =
      tower ((lastTurns (turn :: turns)).reverse.map Turn.shell) inner := by
  induction turns generalizing turn inner with
  | nil => rfl
  | cons next turns ih =>
    obtain ⟨hturn, hrest⟩ := List.forall_mem_cons.1 hp
    rw [constrainAll_cons]
    by_cases hq : turn.qualifier = next.qualifier
    · rw [constrain_shell_of_eq hq hturn (hrest next List.mem_cons_self), ih next hrest,
        lastTurns, if_pos hq]
    · rw [constrain_shell_of_ne hq, ih next hrest, lastTurns, if_neg hq, List.reverse_cons,
        List.map_append, tower_append]
      rfl

theorem present_constrainAll {filter : Option Json} {turns : List Turn}
    (hp : ∀ turn ∈ turns, turn.period.Complete) (hexpr : Dialect.ofFilter filter = .expression)
    (hv : ∀ turn ∈ turns, ¬ Variable.IsGuard turn.qualifier filter) :
    present (constrainAll filter turns) =
      tower ((lastTurns turns).reverse.map Turn.shell) (present filter) := by
  cases turns with
  | nil => rfl
  | cons turn turns =>
    have hguard : ¬ IsGuard .expression turn.qualifier filter := hv turn List.mem_cons_self
    have hfirst : constrain filter turn.qualifier turn.period =
        turn.shell.around (present filter) := by
      rw [constrain_eq_guardIn, hexpr, guardIn_of_not_isGuard hguard]
      rfl
    rw [constrainAll_cons, hfirst, constrainAll_shell turns turn hp, present_tower]

/-! ## Variables under several guards -/

open Expression

/-- The scope behind the guards of some turns, the outermost of which comes first. -/
def scopeBehind (scope : Scope) (turns : List Turn) : Scope :=
  turns.foldl
    (fun scope turn => Variable.bindAll scope (Variable.values turn.qualifier turn.period)) scope

/-- A guard leaves the variables of other qualifiers as they are around it. -/
theorem bindAll_values_of_ne {turn : Turn} {q : Qualifier} (h : turn.qualifier ≠ q)
    (scope : Scope) (field : Field) :
    Variable.bindAll scope (Variable.values turn.qualifier turn.period)
      (Variable.name q field) = scope (Variable.name q field) := by
  apply Variable.bindAll_of_not_mem
  intro hmem
  obtain ⟨m, hm, hkey⟩ := List.mem_map.1 hmem
  obtain ⟨field', hname⟩ := Variable.eq_name_of_mem_values hm
  exact h (Variable.name_inj (hname.symm.trans hkey)).1

/-- Behind several guards a variable has the value of the innermost guard with its qualifier. -/
theorem scopeBehind_name {turns : List Turn} (hp : ∀ turn ∈ turns, turn.period.Complete)
    (scope : Scope) (q : Qualifier) (field : Field) :
    scopeBehind scope turns (Variable.name q field) =
      match turns.reverse.find? fun turn => turn.qualifier = q with
      | some turn => turn.period.value? field
      | none => scope (Variable.name q field) := by
  induction turns generalizing scope with
  | nil => rfl
  | cons turn turns ih =>
    obtain ⟨hturn, hrest⟩ := List.forall_mem_cons.1 hp
    show scopeBehind (Variable.bindAll scope _) turns _ = _
    -- What the inner guards bind hides what the first turn binds.
    rw [ih hrest, List.reverse_cons, List.find?_append]
    cases turns.reverse.find? fun turn => turn.qualifier = q with
    | some inner => rfl
    | none =>
      by_cases hq : turn.qualifier = q
      · subst hq
        simp [Variable.bindAll_values_name hturn]
      · simp [hq, bindAll_values_of_ne hq]

/-! ## Outcomes -/

theorem allTrue_around (f : Feature) {turn : Turn} (hp : turn.period.Complete) (scope : Scope)
    (inner : Option Json) :
    allTrue f scope (some (turn.shell.around inner)).toList =
      if f.overlaps turn.period then
        allTrue f (Variable.bindAll scope (Variable.values turn.qualifier turn.period)) inner.toList
      else .ok false := by
  rw [Variable.allTrue_toList, Option.map_some, Option.getD_some, around_shell,
    Variable.value_guard f turn.qualifier hp]

/-- The outcome of a filter behind several guards. -/
theorem allTrue_tower (f : Feature) {turns : List Turn}
    (hp : ∀ turn ∈ turns, turn.period.Complete) (scope : Scope) (inner : Option Json) :
    allTrue f scope (tower (turns.map Turn.shell) inner).toList =
      if turns.all fun turn => f.overlaps turn.period then
        allTrue f (scopeBehind scope turns) inner.toList
      else .ok false := by
  induction turns generalizing scope with
  | nil => rfl
  | cons turn turns ih =>
    obtain ⟨hturn, hrest⟩ := List.forall_mem_cons.1 hp
    rw [List.map_cons, tower, allTrue_around f hturn, ih hrest,
      List.all_cons]
    cases f.overlaps turn.period with
    | false => rfl
    | true => rfl

/-- Features pass an expression as a row of tests that holds nothing else. -/
theorem passes_eq_allTrue (f : Feature) {filter : Option Json}
    (h : Dialect.ofFilter filter = .expression) :
    passes f (filter.getD .null) = allTrue f .empty (present filter).toList := by
  rw [Variable.allTrue_toList]
  cases filter with
  | none => rfl
  | some v =>
    by_cases hv : v = .null
    · subst hv
      rfl
    · rw [present_of_ne_null hv, Option.getD_some,
        passes_expression f hv (dialect_eq_expression_iff.1 h)]
      rfl

/-- The guards of all turns that end a run stand around the filter.  A feature passes if it passes
the filter and overlaps their periods, and behind the guards every qualifier has the values of its
own innermost guard. -/
theorem passes_constrainAll {filter : Option Json} {turns : List Turn}
    (hp : ∀ turn ∈ turns, turn.period.Complete) (hexpr : Dialect.ofFilter filter = .expression)
    (hv : ∀ turn ∈ turns, ¬ Variable.IsGuard turn.qualifier filter) {f : Feature} {b : Bool}
    (hb : passes f (filter.getD .null) = .ok b) :
    passes f ((constrainAll filter turns).getD .null) =
        .ok (b && (lastTurns turns).all fun turn => f.overlaps turn.period) ∧
      present (constrainAll filter turns) =
        tower ((lastTurns turns).reverse.map Turn.shell) (present filter) ∧
      ∀ q field, scopeBehind .empty (lastTurns turns).reverse (Variable.name q field) =
        ((lastTurns turns).find? fun turn => turn.qualifier = q).bind fun turn =>
          turn.period.value? field := by
  have hlast : ∀ turn ∈ (lastTurns turns).reverse, turn.period.Complete :=
    fun turn hturn => complete_of_mem_lastTurns hp turn (List.mem_reverse.1 hturn)
  have hpresent := present_constrainAll hp hexpr hv
  refine ⟨?_, hpresent, fun q field => ?_⟩
  · rw [passes_eq_allTrue f hexpr] at hb
    rw [passes_eq_allTrue f ((dialect_constrainAll filter turns).trans hexpr), hpresent,
      allTrue_tower f hlast, allTrue_of_empty hb, List.all_reverse]
    cases (lastTurns turns).all fun turn => f.overlaps turn.period with
    | false => rw [Bool.and_false]; rfl
    | true => rw [Bool.and_true]; rfl
  · rw [scopeBehind_name hlast, List.reverse_reverse]
    cases (lastTurns turns).find? fun turn => turn.qualifier = q <;> rfl

/-- A second qualifier. -/
def harbour : Qualifier := ⟨"harbour", by decide⟩

/-- Four turns, of which the second one is replaced by the third. -/
def interleavedTurns : List Turn :=
  [⟨.standard, .ofYear 1850⟩, ⟨harbour, .ofYear 1912⟩, ⟨harbour, .ofYear 2013⟩,
    ⟨.standard, .ofYear 2012⟩]

theorem passes_constrainAll_interleaved :
    (∀ turn ∈ interleavedTurns, turn.period.Complete) ∧
      Dialect.ofFilter (some primaryRoads) = .expression ∧
      (∀ turn ∈ interleavedTurns, ¬ Variable.IsGuard turn.qualifier (some primaryRoads)) ∧
      passes (roadSince "1850-06-01") primaryRoads = .ok true ∧
      passes (roadSince "1850-06-01")
        ((constrainAll (some primaryRoads) interleavedTurns).getD .null) = .ok true := by
  have hp : ∀ turn ∈ interleavedTurns, turn.period.Complete := by
    intro turn hturn
    simp only [interleavedTurns, List.mem_cons, List.not_mem_nil, or_false] at hturn
    rcases hturn with rfl | rfl | rfl | rfl <;> exact Period.complete_ofYear (by decide)
  have hexpr : Dialect.ofFilter (some primaryRoads) = .expression := rfl
  have hv : ∀ turn ∈ interleavedTurns, ¬ Variable.IsGuard turn.qualifier (some primaryRoads) := by
    decide
  have hb : passes (roadSince "1850-06-01") primaryRoads = .ok true := rfl
  have hall : ((lastTurns interleavedTurns).all fun turn =>
      (roadSince "1850-06-01").overlaps turn.period) = true := by decide
  have hpasses := (passes_constrainAll hp hexpr hv hb).1
  rw [hall] at hpasses
  exact ⟨hp, hexpr, hv, hb, hpasses⟩

end Chronomap.Filter
