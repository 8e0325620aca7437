import Chronomap.Proofs.Guard.Updates

/-!
# What the body of a guard sees of a period

Setting a period looks for the first binding of a variable, and the body of a `let` sees the last
one.  These are the same binding where a variable is bound once, and there the body sees the value
of the period.  A variable that is bound twice or more keeps its last binding, and with it its
value:

    scope (name q field) = some v,                            if at most one binding has the name
    scope (name q field) = the value of its last binding      otherwise         (scope_of_update)
-/

namespace Chronomap

/-! ## The last value of a key -/

namespace Json.Members

variable {key : String} {v : Json} {ms : Members}

/-- The value of a key; of a repeated key the last one. -/
def last? (key : String) (ms : Members) : Option Json := (ofKey key ms).getLast?.map Prod.snd

theorem last?_cons_self (m : String × Json) :
    last? m.1 (m :: ms) = some ((last? m.1 ms).getD m.2) := by
  rw [last?, ofKey_cons_self, List.getLast?_cons, last?]
  cases (ofKey m.1 ms).getLast? <;> rfl

theorem last?_cons_of_ne {m : String × Json} (ne : m.1 ≠ key) :
    last? key (m :: ms) = last? key ms := by
  rw [last?, ofKey_cons_of_ne ne, last?]

/-- Where all members have the key, the first one gets the value. -/
theorem insert_ofKey : insert key v (ofKey key ms) = (key, v) :: (ofKey key ms).tail := by
  cases h : ofKey key ms with
  | nil => rfl
  | cons m rest =>
    have hm : m ∈ ofKey key ms := by rw [h]; exact List.mem_cons_self
    have hkey : m.1 = key := by simpa using (List.mem_filter.1 hm).2
    simp [insert, hkey]

theorem last?_insert_self :
    last? key (insert key v ms) =
      if (ofKey key ms).length ≤ 1 then some v else last? key ms := by
  rw [last?, ofKey_insert_self, insert_ofKey, last?]
  cases ofKey key ms with
  | nil => rfl
  | cons m rest =>
    cases rest with
    | nil => rfl
    | cons m' rest => simp [List.getLast?_cons]

end Json.Members

namespace Filter.Variable

open Expression Json.Members

section

variable {new bindings : Json.Members} {key : String} {v : Json}

/-! ## The last binding of a name -/

theorem last?_assign_of_get? (hnew : (new.map Prod.fst).Nodup) (hv : get? key new = some v) :
    last? key (assign new bindings) =
      if (ofKey key bindings).length ≤ 1 then some v else last? key bindings := by
  rw [last?, ofKey_assign hnew, hv, ← last?_insert_self, last?, ofKey_insert_self]

theorem last?_assign_of_none (hnew : (new.map Prod.fst).Nodup) (hnone : get? key new = none) :
    last? key (assign new bindings) = last? key bindings := by
  rw [last?, ofKey_assign hnew, hnone, last?]

/-! ## The scope of a body -/

/-- A body sees the last binding of each name, by its value outside. -/
theorem bindValues_last? {f : Feature} {scope inner result : Scope}
    (h : bindValues f scope inner bindings = .ok result) (key : String) :
    result key =
      match last? key bindings with
      | some e => (value f scope e).toOption
      | none => inner key := by
  induction bindings generalizing inner with
  | nil =>
    obtain rfl := Except.ok.inj h
    rfl
  | cons m rest ih =>
    rw [bindValues] at h
    cases hm : value f scope m.2 with
    | error e =>
      rw [hm] at h
      cases h
    | ok w =>
      rw [hm] at h
      have hrest := ih h
      -- A binding is seen unless a later one has its name.
      by_cases hkey : m.1 = key
      · subst hkey
        rw [hrest, last?_cons_self]
        cases last? m.1 rest with
        | none => simp [Scope.bind, hm, Except.toOption]
        | some e => rfl
      · rw [hrest, last?_cons_of_ne hkey]
        cases last? key rest with
        | none => simp [Scope.bind, Ne.symm hkey]
        | some e => rfl

theorem bindValues_empty {f : Feature} {result : Scope}
    (h : bindValues f .empty .empty bindings = .ok result) (key : String) :
    result key = (last? key bindings).bind fun e => (value f .empty e).toOption := by
  rw [bindValues_last? h key]
  cases last? key bindings <;> rfl

end

/-! ## Updates -/

/-- The body of a guard is evaluated in the scope that its bindings make. -/
theorem passes_binder_eq (f : Feature) (b : Binder) :
    passes f b.toFilter =
      (do value f (← bindValues f .empty .empty b.bindings) b.body).map isSatisfied := by
  rw [passes_binder]
  show (bound f .empty _ .empty (binderArgs b.body b.bindings)).map isSatisfied = _
  rw [bound_binderArgs]

/-- The body of a guard that is set to a period sees the values of the period, save for the
variables that are bound more than once.  These and all other variables are as they were. -/
theorem scope_of_update {q : Qualifier} {b : Binder} (h : b.BindsOwn q) (p : Period)
    (f : Feature) :
    constrain (some b.toFilter) q p = (b.set q p).toFilter ∧
      passes f (constrain (some b.toFilter) q p) =
        (do value f (← bindValues f .empty .empty (b.set q p).bindings) b.body).map isSatisfied ∧
      ∀ scope, bindValues f .empty .empty (b.set q p).bindings = .ok scope →
        (∀ field v, p.value? field = some v →
          scope (name q field) =
            if (ofKey (name q field) b.bindings).length ≤ 1 then some v
            else (last? (name q field) b.bindings).bind fun e => (value f .empty e).toOption) ∧
        ∀ key, (∀ field, key = name q field → p.value? field = none) →
          scope key = (last? key b.bindings).bind fun e => (value f .empty e).toOption := by
  have hset := constrain_toFilter h p
  refine ⟨hset, ?_, ?_⟩
  · rw [hset, passes_binder_eq]
    rfl
  intro scope hscope
  refine ⟨?_, ?_⟩
  · intro field v hv
    have hget : get? (name q field) (values q p) = some v := (get?_values field).trans hv
    rw [bindValues_empty hscope, Binder.set, last?_assign_of_get? nodup_values hget]
    split
    · -- A value of a period is no call, so it is its own value.
      rw [Option.bind_some, value_field hv]
      rfl
    · rfl
  · intro key hkey
    rw [bindValues_empty hscope, Binder.set,
      last?_assign_of_none nodup_values (get?_values_eq_none hkey)]

/-- A guard whose body asks whether it ends with 2013, and whose end is bound to each of the given
dates in turn. -/
def endsWith2013 (dates : List String) : Binder where
  bindings := ("wanted", .bool true) ::
    dates.map fun date => (name .standard ⟨.finish, .isoDate⟩, .str date)
  body := call "==" [call "var" [.str (name .standard ⟨.finish, .isoDate⟩)], .str "2014-01-01"]

theorem scope_of_update_once :
    (endsWith2013 ["1850-01-01"]).BindsOwn .standard ∧
      ∃ scope, bindValues (roadSince "1900-01-01") .empty .empty
          ((endsWith2013 ["1850-01-01"]).set .standard (.ofYear 2013)).bindings = .ok scope ∧
        scope (name .standard ⟨.finish, .isoDate⟩) = some (.str "2014-01-01") ∧
        scope "wanted" = some (.bool true) := by
  have hown : (endsWith2013 ["1850-01-01"]).BindsOwn .standard :=
    ⟨⟨.finish, .isoDate⟩, by decide⟩
  refine ⟨hown, _, rfl, ?_⟩
  obtain ⟨-, -, hscope⟩ := scope_of_update hown (.ofYear 2013) (roadSince "1900-01-01")
  obtain ⟨hset, hkept⟩ := hscope _ rfl
  refine ⟨hset ⟨.finish, .isoDate⟩ (.str "2014-01-01") rfl, ?_⟩
  refine (hkept "wanted" ?_).trans rfl
  rintro ⟨side, scale⟩ h
  cases side <;> cases scale <;> exact absurd h (by decide)

/-- The last of two bindings is the one that counts, and an update leaves it as it is. -/
theorem update_of_repeated_unseen :
    (endsWith2013 ["1850-01-01", "1850-01-01"]).BindsOwn .standard ∧
      (Period.ofYear 2013).value? ⟨.finish, .isoDate⟩ = some (.str "2014-01-01") ∧
      passes (roadSince "1900-01-01")
        (constrain (some (endsWith2013 ["1850-01-01", "1850-01-01"]).toFilter) .standard
          (.ofYear 2013)) = .ok false :=
  ⟨⟨⟨.finish, .isoDate⟩, by decide⟩, rfl, rfl⟩

end Filter.Variable

end Chronomap
