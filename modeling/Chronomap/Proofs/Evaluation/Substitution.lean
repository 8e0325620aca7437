import Chronomap.Filter.Evaluation

/-!
# Variables as substitution

A `let` of one name stands for its body with the value of the name written in place of the variable:

    value f scope ["let", x, e, body] = value f scope (substitute x v body)
                                                                (value_let_eq_substitute)

where `e` has the value `v`.  Both sides have the same value or both have none; a failure can be
described differently, since it shows the node that it comes from.  The substitution goes where
evaluation goes: not into literals, labels and names, and not into the body of a `let` that binds
the name again.
-/

namespace Chronomap.Filter.Expression

/-! ## Substitution -/

mutual

/-- An expression in which `["literal", v]` stands for each variable that reads `x`, save under a
`let` that binds `x` itself. -/
def substitute (x : String) (v : Json) : Json → Json
  | .arr (.str op :: args) =>
    match Operator.ofName? op with
    | some .var => if varName args = x then .arr [.str "literal", v] else .arr (.str op :: args)
    | some .get | some .has | some .not | some .toBoolean =>
      .arr (.str op :: substituteFirst x v args)
    | some (.compare _) | some .contained => .arr (.str op :: substituteTwo x v args)
    | some .all | some .any | some .coalesce => .arr (.str op :: substituteAll x v args)
    | some .choose => .arr (.str op :: substituteChoices x v args)
    | some .select => .arr (.str op :: substituteSelection x v args)
    | some .bind => .arr (.str op :: substituteBindings x v false args)
    | some .literal | some .id | some .geometryType | none => .arr (.str op :: args)
  | e => e

def substituteFirst (x : String) (v : Json) : List Json → List Json
  | [] => []
  | e :: rest => substitute x v e :: rest

def substituteTwo (x : String) (v : Json) : List Json → List Json
  | [] => []
  | e :: rest => substitute x v e :: substituteFirst x v rest

def substituteAll (x : String) (v : Json) : List Json → List Json
  | [] => []
  | e :: rest => substitute x v e :: substituteAll x v rest

/-- `substitute` in conditions and values in turn, and in the fallback. -/
def substituteChoices (x : String) (v : Json) : List Json → List Json
  | [] => []
  | [fallback] => [substitute x v fallback]
  | [unused, fallback] => [unused, substitute x v fallback]
  | condition :: output :: more =>
    substitute x v condition :: substitute x v output :: substituteChoices x v more

/-- `substitute` in the input of a selection and in its branches. -/
def substituteSelection (x : String) (v : Json) : List Json → List Json
  | [] => []
  | input :: branches => substitute x v input :: substituteBranches x v branches

/-- `substitute` in the values after labels, and in the fallback. -/
def substituteBranches (x : String) (v : Json) : List Json → List Json
  | [] => []
  | [fallback] => [substitute x v fallback]
  | [unused, fallback] => [unused, substitute x v fallback]
  | labels :: output :: more => labels :: substitute x v output :: substituteBranches x v more

/-- `substitute` in the values that names are bound to, and in the body if none of the names is `x`;
`rebound` says whether `x` is among the names bound so far. -/
def substituteBindings (x : String) (v : Json) (rebound : Bool) : List Json → List Json
  | [] => []
  | [body] => [if rebound then body else substitute x v body]
  | [name, body] => [name, body]
  | .str name :: e :: more =>
    .str name :: substitute x v e :: substituteBindings x v (rebound || name == x) more
  | name :: e :: more => name :: e :: more

end

/-! ## Outcomes -/

section

variable {α β : Type}

/-- Two outcomes are the same value, or both are failures. -/
def SameOutcome (r s : Except Failure α) : Prop := r.toOption = s.toOption

theorem SameOutcome.refl (r : Except Failure α) : SameOutcome r r := rfl

theorem SameOutcome.symm {r s : Except Failure α} (h : SameOutcome r s) : SameOutcome s r :=
  Eq.symm h

theorem SameOutcome.trans {r s t : Except Failure α} (h : SameOutcome r s) (h' : SameOutcome s t) :
    SameOutcome r t := Eq.trans h h'

theorem SameOutcome.error (e e' : Failure) :
    SameOutcome (.error e : Except Failure α) (.error e') := rfl

theorem SameOutcome.bind {r s : Except Failure α} {g h : α → Except Failure β}
    (start : SameOutcome r s) (next : ∀ a, SameOutcome (g a) (h a)) :
    SameOutcome (r >>= g) (s >>= h) := by
  cases r with
  | error e =>
    cases s with
    | error e' => exact .error e e'
    | ok a => cases start
  | ok a =>
    cases s with
    | error e => cases start
    | ok b =>
      obtain rfl := Option.some.inj start
      exact next a

/-- What is computed from two outcomes without looking at the variables. -/
theorem SameOutcome.map {r s : Except Failure α} (start : SameOutcome r s) (g : α → β) :
    SameOutcome (do return g (← r)) (do return g (← s)) :=
  start.bind fun _ => .refl _

end

/-! ## Scopes -/

/-- `inner` is as `outer`, but for `x`: that has the value `v`, or the same value in both if it is
`rebound`. -/
structure Scope.Sets (x : String) (v : Json) (rebound : Bool) (outer inner : Scope) : Prop where
  other : ∀ name, name ≠ x → inner name = outer name
  self : inner x = if rebound then outer x else some v

theorem Scope.Sets.bind {x : String} {v : Json} {rebound : Bool} {outer inner : Scope}
    (h : Scope.Sets x v rebound outer inner) (name : String) (w : Json) :
    Scope.Sets x v (rebound || name == x) (outer.bind name w) (inner.bind name w) := by
  by_cases hname : name = x
  · subst hname
    refine ⟨fun other hne => ?_, ?_⟩
    · rw [Scope.bind, Scope.bind, if_neg hne, if_neg hne, h.other other hne]
    · simp [Scope.bind]
  · refine ⟨fun other hne => ?_, ?_⟩
    · unfold Scope.bind
      rw [h.other other hne]
    · simpa [Scope.bind, hname, Ne.symm hname] using h.self

theorem Scope.Sets.eq {x : String} {v : Json} {outer inner : Scope}
    (h : Scope.Sets x v true outer inner) : inner = outer := by
  funext name
  by_cases hname : name = x
  · rw [hname]
    exact h.self
  · exact h.other name hname

/-! ## Expressions -/

section

variable {x : String} {v : Json}

/-- Where `x` is read it has the value `v`, and every other variable is read alike. -/
theorem var_substitute (f : Feature) {outer inner : Scope}
    (h : Scope.Sets x v false outer inner) {op : String} (hop : Operator.ofName? op = some .var)
    (args : List Json) :
    SameOutcome (value f inner (.arr (.str op :: args)))
      (value f outer (substitute x v (.arr (.str op :: args)))) := by
  simp only [substitute, hop]
  by_cases hname : varName args = x
  · have hself : inner (varName args) = some v := by
      rw [hname]
      exact h.self
    rw [if_pos hname]
    simp only [value, hop, hself]
    exact .refl _
  · rw [if_neg hname]
    simp only [value, hop, h.other _ hname]
    exact .refl _

theorem first_substituteTwo (f : Feature) (scope : Scope) (args : List Json) :
    first f scope (substituteTwo x v args) = first f scope (substituteFirst x v args) := by
  cases args <;> rfl

theorem substituteChoices_ne_nil (e : Json) (more : List Json) :
    substituteChoices x v (e :: more) ≠ [] := by
  rcases more with _ | ⟨e', _ | ⟨e'', more⟩⟩ <;> simp [substituteChoices]

theorem substituteBranches_ne_nil (e : Json) (more : List Json) :
    substituteBranches x v (e :: more) ≠ [] := by
  rcases more with _ | ⟨e', _ | ⟨e'', more⟩⟩ <;> simp [substituteBranches]

theorem substituteBindings_ne_nil (rebound : Bool) (e : Json) (more : List Json) :
    substituteBindings x v rebound (e :: more) ≠ [] := by
  rcases more with _ | ⟨e', _ | ⟨e'', more⟩⟩ <;> cases e <;> simp [substituteBindings]

mutual

theorem value_substitute (f : Feature) {outer inner : Scope}
    (h : Scope.Sets x v false outer inner) :
    (e : Json) → SameOutcome (value f inner e) (value f outer (substitute x v e))
  | .arr (.str op :: args) => by
    have hfirst := first_substituteFirst f h args
    have hsecond := second_substituteTwo f h args
    cases hop : Operator.ofName? op with
    | none =>
      simp only [substitute, value, hop]
      exact .refl _
    | some o =>
      cases o
      case var => exact var_substitute f h hop args
      all_goals simp only [substitute, value, hop]
      case literal | id | geometryType => exact .refl _
      case get | has | not | toBoolean => exact hfirst.map _
      case compare | contained =>
        rw [first_substituteTwo]
        exact hfirst.bind fun _ => hsecond.map _
      case all => exact (allTrue_substituteAll f h args).map _
      case any => exact (anyTrue_substituteAll f h args).map _
      case coalesce => exact firstPresent_substituteAll f h args
      case choose => exact firstChosen_substituteChoices f h args
      case select => exact selected_substituteSelection f h args
      case bind => exact bound_substituteBindings f h _ _ h args
  -- What is no call has the same value, or the same failure, in every scope.
  | .arr [] | .arr (.null :: _) | .arr (.bool _ :: _) | .arr (.num _ :: _)
  | .arr (.arr _ :: _) | .arr (.obj _ :: _) | .obj _ => .refl _
  | .null | .bool _ | .num _ | .str _ => .refl _

theorem first_substituteFirst (f : Feature) {outer inner : Scope}
    (h : Scope.Sets x v false outer inner) :
    (args : List Json) → SameOutcome (first f inner args) (first f outer (substituteFirst x v args))
  | [] => .refl _
  | e :: _ => by
    rw [substituteFirst, first, first]
    exact value_substitute f h e

theorem second_substituteTwo (f : Feature) {outer inner : Scope}
    (h : Scope.Sets x v false outer inner) :
    (args : List Json) → SameOutcome (second f inner args) (second f outer (substituteTwo x v args))
  | [] => .refl _
  | _ :: rest => by
    rw [substituteTwo, second, second]
    exact first_substituteFirst f h rest

theorem allTrue_substituteAll (f : Feature) {outer inner : Scope}
    (h : Scope.Sets x v false outer inner) :
    (args : List Json) →
      SameOutcome (allTrue f inner args) (allTrue f outer (substituteAll x v args))
  | [] => .refl _
  | e :: rest => by
    rw [substituteAll, allTrue, allTrue]
    refine (value_substitute f h e).bind fun w => ?_
    split
    · exact allTrue_substituteAll f h rest
    · exact .refl _

theorem anyTrue_substituteAll (f : Feature) {outer inner : Scope}
    (h : Scope.Sets x v false outer inner) :
    (args : List Json) →
      SameOutcome (anyTrue f inner args) (anyTrue f outer (substituteAll x v args))
  | [] => .refl _
  | e :: rest => by
    rw [substituteAll, anyTrue, anyTrue]
    refine (value_substitute f h e).bind fun w => ?_
    split
    · exact .refl _
    · exact anyTrue_substituteAll f h rest

theorem firstPresent_substituteAll (f : Feature) {outer inner : Scope}
    (h : Scope.Sets x v false outer inner) :
    (args : List Json) →
      SameOutcome (firstPresent f inner args) (firstPresent f outer (substituteAll x v args))
  | [] => .refl _
  | e :: rest => by
    rw [substituteAll, firstPresent, firstPresent]
    refine (value_substitute f h e).bind fun w => ?_
    split
    · exact firstPresent_substituteAll f h rest
    · exact .refl _

theorem firstChosen_substituteChoices (f : Feature) {outer inner : Scope}
    (h : Scope.Sets x v false outer inner) :
    (args : List Json) →
      SameOutcome (firstChosen f inner args) (firstChosen f outer (substituteChoices x v args))
  | [] => .refl _
  | [fallback] => by
    rw [substituteChoices, firstChosen, firstChosen]
    exact value_substitute f h fallback
  | [_, fallback] => by
    rw [substituteChoices, firstChosen, firstChosen]
    exact value_substitute f h fallback
  | condition :: output :: e :: more => by
    rw [substituteChoices, firstChosen, firstChosen]
    · refine (value_substitute f h condition).bind fun w => ?_
      split
      · exact value_substitute f h output
      · exact firstChosen_substituteChoices f h (e :: more)
    all_goals simp [substituteChoices_ne_nil]

theorem selected_substituteSelection (f : Feature) {outer inner : Scope}
    (h : Scope.Sets x v false outer inner) :
    (args : List Json) →
      SameOutcome (selected f inner args) (selected f outer (substituteSelection x v args))
  | [] => .refl _
  | input :: branches => by
    rw [substituteSelection, selected, selected]
    exact (value_substitute f h input).bind fun w => firstLabelled_substituteBranches f h w branches

theorem firstLabelled_substituteBranches (f : Feature) {outer inner : Scope}
    (h : Scope.Sets x v false outer inner) (input : Json) :
    (args : List Json) →
      SameOutcome (firstLabelled f inner input args)
        (firstLabelled f outer input (substituteBranches x v args))
  | [] => .refl _
  | [fallback] => by
    rw [substituteBranches, firstLabelled, firstLabelled]
    exact value_substitute f h fallback
  | [_, fallback] => by
    rw [substituteBranches, firstLabelled, firstLabelled]
    exact value_substitute f h fallback
  | labels :: output :: e :: more => by
    rw [substituteBranches, firstLabelled, firstLabelled]
    · split
      · exact value_substitute f h output
      · exact firstLabelled_substituteBranches f h input (e :: more)
    all_goals simp [substituteBranches_ne_nil]

theorem bound_substituteBindings (f : Feature) {outer inner : Scope}
    (h : Scope.Sets x v false outer inner) (node node' : Json) {rebound : Bool}
    {outer' inner' : Scope} (h' : Scope.Sets x v rebound outer' inner') :
    (args : List Json) →
      SameOutcome (bound f inner node inner' args)
        (bound f outer node' outer' (substituteBindings x v rebound args))
  | [] => .refl _
  | [body] => by
    rw [substituteBindings, bound, bound]
    cases rebound with
    | false => exact value_substitute f h' body
    | true =>
      -- The name is bound again, so the body is left as it is.
      rw [h'.eq]
      exact .refl _
  | [_, _] => .error _ _
  | .str name :: e :: e' :: more => by
    rw [substituteBindings, bound, bound]
    · exact (value_substitute f h e).bind fun w =>
        bound_substituteBindings f h node node' (h'.bind name w) (e' :: more)
    all_goals simp [substituteBindings_ne_nil]
  | .null :: _ :: _ :: _ | .bool _ :: _ :: _ :: _ | .num _ :: _ :: _ :: _
  | .arr _ :: _ :: _ :: _ | .obj _ :: _ :: _ :: _ => .error _ _

end

/-! ## Binders of one name -/

/-- A `let` of one name is its body with the value of the name in place of the variable, which is
then read nowhere: no other value of it makes a difference. -/
theorem value_let_eq_substitute (f : Feature) {scope : Scope} (x : String) {e v : Json}
    (h : value f scope e = .ok v) (body : Json) :
    SameOutcome (value f scope (.arr [.str "let", .str x, e, body]))
        (value f scope (substitute x v body)) ∧
      ∀ other : Scope, (∀ name, name ≠ x → other name = scope name) →
        SameOutcome (value f other (substitute x v body))
          (value f scope (substitute x v body)) := by
  have hbound : value f scope (.arr [.str "let", .str x, e, body]) =
      value f (scope.bind x v) body := by
    show bound f scope (.arr [.str "let", .str x, e, body]) scope [.str x, e, body] = _
    rw [bound, h]
    · show bound f scope (.arr [.str "let", .str x, e, body]) (scope.bind x v) [body] = _
      rw [bound]
    · simp
  -- Outside `x` the scopes agree, and the substituted body does not read `x`.
  have hbody : ∀ other : Scope, (∀ name, name ≠ x → other name = scope name) →
      SameOutcome (value f (scope.bind x v) body) (value f other (substitute x v body)) := by
    intro other hother
    refine value_substitute f ⟨fun name hname => ?_, if_pos rfl⟩ body
    rw [Scope.bind, if_neg hname, hother name hname]
  have hscope := hbody scope fun _ _ => rfl
  refine ⟨hbound ▸ hscope, fun other hother => ?_⟩
  exact (hbody other hother).symm.trans hscope

end

/-- A test of a class that is read twice.  Its name also stands among labels, and it is bound
again. -/
def classTest (read : Json) : Json :=
  .arr [.str "match", read, .arr [.str "var", .str "class"], .bool false,
    .arr [.str "let", .str "class", .arr [.str "==", read, .str "primary"],
      .arr [.str "var", .str "class"]]]

theorem value_let_eq_substitute_classTest :
    let road : Feature := ⟨none, none, [("class", .str "primary")]⟩
    let get : Json := .arr [.str "get", .str "class"]
    let var : Json := .arr [.str "var", .str "class"]
    value road .empty get = .ok (.str "primary") ∧
      substitute "class" (.str "primary") (classTest var) =
        classTest (.arr [.str "literal", .str "primary"]) ∧
      SameOutcome (value road .empty (.arr [.str "let", .str "class", get, classTest var]))
        (.ok (.bool true)) := by
  intro road get var
  have hget : value road .empty get = .ok (.str "primary") := rfl
  have hsubstitute : substitute "class" (.str "primary") (classTest var) =
      classTest (.arr [.str "literal", .str "primary"]) := rfl
  obtain ⟨hsame, -⟩ := value_let_eq_substitute road "class" hget (classTest var)
  rw [hsubstitute] at hsame
  exact ⟨hget, hsubstitute, hsame⟩

end Chronomap.Filter.Expression
