import Chronomap.Proofs.Guard.Variables

/-!
# The forms of guards

What reads guards and what writes them share the names of properties, operators and variables.
Here the forms stand on their own, word by word, with the values of a period in their places:

    Literal.Guard.ofFilter? v = some g ↔ v = g.form                        (Literal.guard_iff_form)
    Variable.Binder.ofFilter? v = some b ↔ v = b.form                      (Variable.let_iff_form)

A guard that is set to a period keeps its form, and all but the values of the period in it.  Any
other filter is kept whole, inside a new guard.
-/

namespace Chronomap.Filter

theorem present_some (v : Json) : present (some v) = if v = .null then none else some v := by
  split
  · next h =>
    rw [h]
    rfl
  · next h => exact present_of_ne_null h

/-! ## Guards of legacy filters -/

namespace Literal

/-- A guard, word by word. -/
def Guard.form (g : Guard) : Json :=
  .arr ([.str "all",
    .arr [.str "any",
      .arr [.str "all", .arr [.str "has", .str "start_decdate"],
        .arr [.str "<", .str "start_decdate", g.start.decimalYear]],
      .arr [.str "all", .arr [.str "!has", .str "start_decdate"],
        .arr [.str "has", .str "start_date"],
        .arr [.str "<", .str "start_date", g.start.isoDate]],
      .arr [.str "all", .arr [.str "!has", .str "start_decdate"],
        .arr [.str "!has", .str "start_date"]]],
    .arr [.str "any",
      .arr [.str "all", .arr [.str "has", .str "end_decdate"],
        .arr [.str ">=", .str "end_decdate", g.finish.decimalYear]],
      .arr [.str "all", .arr [.str "!has", .str "end_decdate"],
        .arr [.str "has", .str "end_date"],
        .arr [.str ">=", .str "end_date", g.finish.isoDate]],
      .arr [.str "all", .arr [.str "!has", .str "end_decdate"],
        .arr [.str "!has", .str "end_date"]]]] ++ g.guarded.toList)

/-- The values of an end of a period, and the given limits where it has none. -/
def limitsAt (e : Endpoint) (missing : Limits) : Limits where
  decimalYear := (e.decimalYear.map Json.ofFloat).getD missing.decimalYear
  isoDate := (e.isoDate.map Json.str).getD missing.isoDate

theorem toFilter_eq_form (g : Guard) : g.toFilter = g.form := rfl

/-- Starts are limited by the end of a period, and ends by its start. -/
theorem set_eq_limitsAt (g : Guard) (p : Period) :
    g.set p = ⟨limitsAt p.finish g.start, limitsAt p.start g.finish, g.guarded⟩ := rfl

theorem constrain_of_ne_form {v : Json} (h : ∀ g : Guard, v ≠ g.form) (p : Period) :
    constrain (some v) p =
      Guard.form ⟨limitsAt p.finish ⟨.null, .null⟩, limitsAt p.start ⟨.null, .null⟩,
        present (some v)⟩ := by
  have hguard : ¬ IsGuard (some v) := by
    rintro ⟨g, hg⟩
    exact h g (Option.some.inj hg)
  rw [constrain_of_not_isGuard hguard, set_eq_limitsAt, toFilter_eq_form]
  rfl

/-- The filters of this form are the guards, each with its own literals and filter.  A period
takes the place of the literals that it has values for, and a filter of any other form is kept
whole. -/
theorem guard_iff_form (v : Json) :
    (∀ g : Guard, Guard.ofFilter? v = some g ↔ v = g.form) ∧
      ∀ p,
        (∀ g : Guard, v = g.form →
          constrain (some v) p = (g.set p).toFilter ∧
            (g.set p).toFilter =
              Guard.form ⟨limitsAt p.finish g.start, limitsAt p.start g.finish, g.guarded⟩) ∧
        ((∀ g : Guard, v ≠ g.form) →
          constrain (some v) p =
            Guard.form ⟨limitsAt p.finish ⟨.null, .null⟩, limitsAt p.start ⟨.null, .null⟩,
              if v = .null then none else some v⟩) := by
  refine ⟨fun g => ofFilter?_eq_some_iff, fun p => ⟨?_, ?_⟩⟩
  · rintro g rfl
    exact ⟨constrain_toFilter g p, by rw [set_eq_limitsAt, toFilter_eq_form]⟩
  · intro h
    rw [constrain_of_ne_form h, present_some]

/-- A guard around no filter, with unlike literals. -/
def since1850 : Guard := ⟨⟨.null, .str "1851-01-01"⟩, ⟨.bool true, .str "1850"⟩, none⟩

/-- The guard with one more argument than a guard can have. -/
def overfull : Json := .arr ((since1850.form.items?.getD []) ++ [.bool true, .bool true])

theorem guard_iff_form_overfull :
    constrain (some since1850.form) (.ofYear 2013) =
        Guard.form ⟨limitsAt (Period.ofYear 2013).finish ⟨.null, .null⟩,
          limitsAt (Period.ofYear 2013).start ⟨.null, .null⟩, none⟩ ∧
      (∀ g : Guard, overfull ≠ g.form) ∧
      constrain (some overfull) (.ofYear 2013) =
        Guard.form ⟨limitsAt (Period.ofYear 2013).finish ⟨.null, .null⟩,
          limitsAt (Period.ofYear 2013).start ⟨.null, .null⟩, some overfull⟩ := by
  obtain ⟨-, hguard⟩ := guard_iff_form since1850.form
  obtain ⟨hread, hother⟩ := guard_iff_form overfull
  have hne : ∀ g : Guard, overfull ≠ g.form := by
    intro g hg
    cases (hread g).2 hg
  obtain ⟨hset, hform⟩ := (hguard (.ofYear 2013)).1 since1850 rfl
  exact ⟨hset.trans hform, hne, (hother (.ofYear 2013)).2 hne⟩

end Literal

/-! ## Guards of expressions -/

namespace Variable

open Json.Members

/-- The words of a binder: names and values in turn, and the body. -/
def Binder.words (b : Binder) : List Json :=
  .str "let" :: b.bindings.flatMap (fun m => [.str m.1, m.2]) ++ [b.body]

def Binder.form (b : Binder) : Json := .arr b.words

/-- The last parts of the names of variables, in the order in which they are bound. -/
def fieldNames : List String := ["startDecimalYear", "startISODate", "endDecimalYear", "endISODate"]

/-- The fields of a period, in the same order. -/
def fieldValues (p : Period) : List (Option Json) :=
  [p.start.decimalYear.map Json.ofFloat, p.start.isoDate.map Json.str,
    p.finish.decimalYear.map Json.ofFloat, p.finish.isoDate.map Json.str]

def ownNames (q : Qualifier) : List String := fieldNames.map fun field => q.text ++ "__" ++ field

/-- The variables that a period has a value for. -/
def newBindings (q : Qualifier) (p : Period) : Json.Members :=
  ((ownNames q).zip (fieldValues p)).filterMap fun (key, value) => value.map (key, ·)

theorem binderArgs_eq (body : Json) (bindings : Json.Members) :
    binderArgs body bindings = bindings.flatMap (fun m => [.str m.1, m.2]) ++ [body] := by
  induction bindings with
  | nil => rfl
  | cons m rest ih =>
    rw [binderArgs, ih]
    rfl

theorem toFilter_eq_form (b : Binder) : b.toFilter = b.form := by
  rw [Binder.toFilter, binderArgs_eq]
  rfl

theorem length_words (b : Binder) : b.words.length = 2 * b.bindings.length + 2 := by
  have hpairs : ∀ bindings : Json.Members,
      (bindings.flatMap fun m => [Json.str m.1, m.2]).length = 2 * bindings.length := by
    intro bindings
    induction bindings with
    | nil => rfl
    | cons m rest ih =>
      rw [List.flatMap_cons, List.length_append, ih, List.length_cons]
      simp only [List.length_cons, List.length_nil]
      omega
  rw [Binder.words, List.length_append, List.length_cons, hpairs]
  simp

theorem values_eq_newBindings (q : Qualifier) (p : Period) : values q p = newBindings q p := rfl

theorem mem_ownNames_iff {q : Qualifier} {key : String} :
    key ∈ ownNames q ↔ ∃ field, name q field = key := by
  have hnames : ownNames q = Field.all.map (name q) := rfl
  rw [hnames, List.mem_map]
  constructor
  · rintro ⟨field, -, h⟩
    exact ⟨field, h⟩
  · rintro ⟨field, h⟩
    exact ⟨field, Field.mem_all field, h⟩

theorem bindsOwn_iff {q : Qualifier} {b : Binder} :
    b.BindsOwn q ↔ ∃ m ∈ b.bindings, m.1 ∈ ownNames q := by
  constructor
  · rintro ⟨field, h⟩
    obtain ⟨m, hm, hkey⟩ := List.mem_map.1 h
    exact ⟨m, hm, mem_ownNames_iff.2 ⟨field, hkey.symm⟩⟩
  · rintro ⟨m, hm, hown⟩
    obtain ⟨field, hfield⟩ := mem_ownNames_iff.1 hown
    exact ⟨field, hfield ▸ List.mem_map_of_mem hm⟩

/-! ### Which calls are binders -/

/-- Arguments of a `let`: pairs that start with a string, and one more. -/
theorem isSome_binder?_iff {args : List Json} :
    (binder? args).isSome ↔ args.length % 2 = 1 ∧
      ∀ i, 2 * i + 1 < args.length → ∃ key, args[2 * i]? = some (.str key) := by
  induction args using binder?.induct with
  | case1 => simp [binder?]
  | case2 body =>
    simp [binder?]
  | case3 key v args ih =>
    rw [binder?, Option.isSome_map, ih]
    constructor
    · rintro ⟨hodd, hkeys⟩
      refine ⟨by simp only [List.length_cons]; omega, ?_⟩
      intro i hi
      cases i with
      | zero => exact ⟨key, rfl⟩
      | succ i => exact hkeys i (by simp only [List.length_cons] at hi; omega)
    · rintro ⟨hodd, hkeys⟩
      simp only [List.length_cons] at hodd hkeys
      refine ⟨by omega, ?_⟩
      intro i hi
      exact hkeys (i + 1) (by omega)
  | case4 x y args hx =>
    rw [binder?]
    · constructor
      · intro h
        cases h
      · rintro ⟨-, hkeys⟩
        obtain ⟨key, hkey⟩ := hkeys 0 (by simp)
        exact absurd (Option.some.inj hkey) (hx key)
    · exact hx

/-! ### Which bindings change -/

section

variable {new bindings : Json.Members} {i : Nat} {m : String × Json}

/-- The first binding of a name gets the new value, in its place. -/
theorem getElem?_assign (hnew : (new.map Prod.fst).Nodup) (h : bindings[i]? = some m) :
    (assign new bindings)[i]? =
      some (m.1, if m.1 ∈ (bindings.take i).map Prod.fst then m.2 else (get? m.1 new).getD m.2) := by
  -- Each new value changes one binding at most, and the names in front of it stay.
  induction new generalizing bindings m with
  | nil => simpa [assign, get?] using h
  | cons n rest ih =>
    rw [List.map_cons, List.nodup_cons] at hnew
    have hi : i ≤ bindings.length := Nat.le_of_lt (List.getElem?_eq_some_iff.1 h).1
    rw [assign_cons, ih hnew.2 (getElem?_insert h), map_fst_take_insert hi]
    by_cases hseen : m.1 ∈ (bindings.take i).map Prod.fst
    · have hkept : ¬ (m.1 = n.1 ∧ n.1 ∉ (bindings.take i).map Prod.fst) := by
        rintro ⟨heq, hfirst⟩
        exact hfirst (heq ▸ hseen)
      rw [if_pos hseen, if_pos hseen, if_neg hkept]
    · rw [if_neg hseen, if_neg hseen]
      by_cases heq : m.1 = n.1
      · rw [if_pos ⟨heq, heq ▸ hseen⟩, heq, get?_of_not_mem hnew.1]
        simp [get?]
      · rw [if_neg fun hfirst => heq hfirst.1]
        simp [get?, Ne.symm heq]

/-- Names that are not bound come last, in their order. -/
theorem drop_assign (hnew : (new.map Prod.fst).Nodup) :
    (assign new bindings).drop bindings.length =
      new.filter fun n => n.1 ∉ bindings.map Prod.fst := by
  induction new generalizing bindings with
  | nil => simp [assign]
  | cons n rest ih =>
    rw [List.map_cons, List.nodup_cons] at hnew
    have hstep := @ih (Json.Members.insert n.1 n.2 bindings) hnew.2
    rw [assign_cons, List.filter_cons]
    by_cases hbound : n.1 ∈ bindings.map Prod.fst
    · have hkeys := map_fst_insert_of_mem (v := n.2) hbound
      have hlength : (Json.Members.insert n.1 n.2 bindings).length = bindings.length := by
        rw [← List.length_map Prod.fst, hkeys, List.length_map]
      rw [hkeys, hlength] at hstep
      rw [if_neg (by simpa using hbound), hstep]
    · rw [insert_of_not_mem hbound] at hstep ⊢
      -- A name that was not bound is the first of those that come last.
      have hlast : (assign rest (bindings ++ [(n.1, n.2)]))[bindings.length]? = some n := by
        have hplace : (bindings ++ [(n.1, n.2)])[bindings.length]? = some n := by simp
        rw [getElem?_assign hnew.2 hplace, get?_of_not_mem hnew.1]
        simp
      have hothers : rest.filter (fun m => m.1 ∉ (bindings ++ [(n.1, n.2)]).map Prod.fst) =
          rest.filter fun m => m.1 ∉ bindings.map Prod.fst := by
        apply List.filter_congr
        intro m hm
        have hne : m.1 ≠ n.1 := fun heq => hnew.1 (heq ▸ List.mem_map_of_mem hm)
        simp [hne]
      rw [List.length_append, hothers] at hstep
      rw [if_pos (by simpa using hbound), List.drop_eq_getElem?_toList_append, hlast]
      exact congrArg (n :: ·) hstep

theorem length_assign (hnew : (new.map Prod.fst).Nodup) :
    (assign new bindings).length =
      bindings.length + (new.filter fun n => n.1 ∉ bindings.map Prod.fst).length := by
  have hle : (bindings.map Prod.fst).length ≤ ((assign new bindings).map Prod.fst).length :=
    map_fst_prefix_assign.length_le
  rw [List.length_map, List.length_map] at hle
  rw [← drop_assign hnew, List.length_drop, Nat.add_sub_cancel' hle]

end

/-- `after` is `before` with new values for some names. -/
structure Rebound (new before after : Json.Members) : Prop where
  /-- The first binding of a name gets its new value, in its place. -/
  first : ∀ i m v, before[i]? = some m → m.1 ∉ (before.take i).map Prod.fst →
    get? m.1 new = some v → after[i]? = some (m.1, v)
  /-- Later bindings of a name, and bindings of names without a new value, are kept. -/
  other : ∀ i m, before[i]? = some m →
    m.1 ∈ (before.take i).map Prod.fst ∨ get? m.1 new = none → after[i]? = some m
  /-- Names that were not bound come last, in their order. -/
  added : after.drop before.length = new.filter fun n => n.1 ∉ before.map Prod.fst

theorem rebound_assign {new : Json.Members} (hnew : (new.map Prod.fst).Nodup)
    (before : Json.Members) : Rebound new before (assign new before) where
  first := by
    intro i m v h hfirst hv
    rw [getElem?_assign hnew h, if_neg hfirst, hv, Option.getD_some]
  other := by
    intro i m h hkept
    rw [getElem?_assign hnew h]
    split
    · rfl
    · next hfirst =>
      rw [hkept.resolve_left hfirst]
      rfl
  added := drop_assign hnew

/-! ### Setting a period -/

section

variable {q : Qualifier} {p : Period}

theorem constrain_form {b : Binder} (h : ∃ m ∈ b.bindings, m.1 ∈ ownNames q) :
    constrain (some b.form) q p =
      Binder.form ⟨assign (newBindings q p) b.bindings, b.body⟩ := by
  rw [← toFilter_eq_form, constrain_toFilter (bindsOwn_iff.2 h), toFilter_eq_form]
  rfl

theorem constrain_of_ne_form {v : Json}
    (h : ∀ b : Binder, v = b.form → ∀ m ∈ b.bindings, m.1 ∉ ownNames q) :
    constrain (some v) q p =
      Binder.form ⟨newBindings q p, call "all"
        ([clause q .start, clause q .finish] ++ if v = .null then [] else [v])⟩ := by
  have hguard : ¬ IsGuard q (some v) := by
    rintro ⟨b, hb, hown⟩
    obtain ⟨m, hm, hkey⟩ := bindsOwn_iff.1 hown
    exact h b (by rw [Option.some.inj hb, toFilter_eq_form]) m hm hkey
  have hrest : (present (some v)).toList = if v = .null then [] else [v] := by
    rw [present_some]
    split <;> rfl
  rw [constrain_of_not_isGuard hguard, toFilter_eq_form, values_eq_newBindings, tests, hrest]
  rfl

theorem exists_form_iff {v : Json} :
    (∃ b : Binder, v = b.form) ↔ ∃ args, v = .arr (.str "let" :: args) ∧ args.length % 2 = 1 ∧
      ∀ i, 2 * i + 1 < args.length → ∃ key, args[2 * i]? = some (.str key) := by
  constructor
  · rintro ⟨b, rfl⟩
    refine ⟨binderArgs b.body b.bindings, (toFilter_eq_form b).symm, isSome_binder?_iff.1 ?_⟩
    rw [binder?_binderArgs]
    rfl
  · rintro ⟨args, rfl, hargs⟩
    obtain ⟨b, hb⟩ := Option.isSome_iff_exists.1 (isSome_binder?_iff.2 hargs)
    refine ⟨b, ?_⟩
    rw [← toFilter_eq_form, eq_binderArgs_of_binder? hb]
    rfl

end

/-- The filters of this form are the binders, each with its own bindings and body: the calls of
`let` with an odd number of arguments, of which every other one but the last is a string.  A
binder of a variable of the qualifier is rebound to the period, under the same body, and grows by
two words for each variable that it did not bind.  Any other filter is kept whole. -/
theorem let_iff_form (v : Json) (q : Qualifier) (p : Period) :
    (∀ b : Binder, Binder.ofFilter? v = some b ↔ v = b.form) ∧
      ((∃ b : Binder, v = b.form) ↔
        ∃ args, v = .arr (.str "let" :: args) ∧ args.length % 2 = 1 ∧
          ∀ i, 2 * i + 1 < args.length → ∃ key, args[2 * i]? = some (.str key)) ∧
      (∀ b : Binder, v = b.form → (∃ m ∈ b.bindings, m.1 ∈ ownNames q) →
        ∃ after : Binder, constrain (some v) q p = after.form ∧ after.body = b.body ∧
          Rebound (newBindings q p) b.bindings after.bindings ∧
          after.words.length = b.words.length +
            2 * ((newBindings q p).filter fun n => n.1 ∉ b.bindings.map Prod.fst).length) ∧
      ((∀ b : Binder, v = b.form → ∀ m ∈ b.bindings, m.1 ∉ ownNames q) →
        constrain (some v) q p = Binder.form ⟨newBindings q p, call "all"
          ([clause q .start, clause q .finish] ++ if v = .null then [] else [v])⟩) := by
  refine ⟨?_, exists_form_iff, ?_, constrain_of_ne_form⟩
  · intro b
    rw [ofFilter?_eq_some_iff, toFilter_eq_form]
  · rintro b rfl hown
    have hnew : ((newBindings q p).map Prod.fst).Nodup := nodup_values
    refine ⟨_, constrain_form hown, rfl, rebound_assign hnew b.bindings, ?_⟩
    rw [length_words, length_words, length_assign hnew]
    omega

/-- A guard that binds one variable twice and another name in between. -/
def handMade : Binder where
  bindings := [("mapdate__endISODate", .str "1850-01-01"), ("wanted", .bool true),
    ("mapdate__endISODate", .null)]
  body := call "has" [.str "class"]

def isoDatesOnly : Period :=
  ⟨⟨none, none, some "2013-01-01"⟩, ⟨none, none, some "2014-01-01"⟩⟩

def bodiless : Json := call "let" [.str "mapdate__endISODate", .str "1850-01-01"]

theorem let_iff_form_handMade :
    (∃ m ∈ handMade.bindings, m.1 ∈ ownNames .standard) ∧
      (∃ after : Binder, constrain (some handMade.form) .standard isoDatesOnly = after.form ∧
        after.bindings[0]? = some ("mapdate__endISODate", .str "2014-01-01") ∧
        after.bindings[2]? = some ("mapdate__endISODate", .null) ∧
        after.bindings.drop 3 = [("mapdate__startISODate", .str "2013-01-01")]) ∧
      (∀ b : Binder, bodiless = b.form → ∀ m ∈ b.bindings, m.1 ∉ ownNames .standard) ∧
      ∃ front body, constrain (some bodiless) .standard isoDatesOnly = Binder.form ⟨front, body⟩ ∧
        (args? "all" body).bind List.getLast? = some bodiless := by
  have hown : ∃ m ∈ handMade.bindings, m.1 ∈ ownNames .standard :=
    ⟨_, List.mem_cons_self, by decide⟩
  obtain ⟨-, -, hrebound, -⟩ := let_iff_form handMade.form .standard isoDatesOnly
  obtain ⟨after, hafter, -, hbindings, -⟩ := hrebound handMade rfl hown
  obtain ⟨hread, -, -, hkept⟩ := let_iff_form bodiless .standard isoDatesOnly
  have hother : ∀ b : Binder, bodiless = b.form → ∀ m ∈ b.bindings, m.1 ∉ ownNames .standard := by
    intro b hb
    cases (hread b).2 hb
  refine ⟨hown, ⟨after, hafter, ?_, ?_, hbindings.added⟩, hother, _, _, hkept hother, rfl⟩
  · exact hbindings.first 0 _ _ rfl (by decide) rfl
  · exact hbindings.other 2 _ rfl (.inl (by decide))

end Variable

end Chronomap.Filter
