import Chronomap.Proofs.Guard.Reading
import Chronomap.Proofs.Json.Members
import Chronomap.Proofs.Period.Completeness

/-!
# The variables of a guard

The name of a variable can be taken apart in one way, so guards with different qualifiers share
no variable:

    name q a = name r b → q = r ∧ a = b      (name_inj)

Setting a period gives every variable that the period has a value for this value, keeps all other
variables, and leaves the variables in their order, new ones last.  Of two complete periods only
the later one is seen:

    get? (name q field) (assign (values q p) bindings)
      = (p.value? field).or (get? (name q field) bindings)                  (get?_assign_values)
    assign (values q p') (assign (values q p) bindings)
      = assign (values q p') bindings                              (assign_values_assign_values)
-/

namespace Chronomap.Filter.Variable

/-! ## Names -/

/-- A text is cut at its last separator in one way. -/
theorem append_cons_inj {sep : Char} {as bs xs ys : List Char} (hx : sep ∉ xs) (hy : sep ∉ ys)
    (h : as ++ sep :: xs = bs ++ sep :: ys) : as = bs ∧ xs = ys := by
  rcases List.append_eq_append_iff.1 h with ⟨cs, hbs, hrest⟩ | ⟨cs, has, hrest⟩
  · cases cs with
    | nil =>
      rw [List.append_nil] at hbs
      exact ⟨hbs.symm, (List.cons.inj hrest).2⟩
    | cons c cs =>
      refine absurd ?_ hx
      rw [(List.cons.inj hrest).2]
      exact List.mem_append_right _ List.mem_cons_self
  · cases cs with
    | nil =>
      rw [List.append_nil] at has
      exact ⟨has, (List.cons.inj hrest).2.symm⟩
    | cons c cs =>
      refine absurd ?_ hy
      rw [(List.cons.inj hrest).2]
      exact List.mem_append_right _ List.mem_cons_self

theorem underscore_not_mem (field : Field) : '_' ∉ field.name.toList := by
  obtain ⟨side, scale⟩ := field
  cases side <;> cases scale <;> decide

theorem toList_name (q : Qualifier) (field : Field) :
    (name q field).toList = (q.text.toList ++ ['_']) ++ '_' :: field.name.toList := by
  simp [name, Qualifier.variableName]

theorem name_inj {q r : Qualifier} {a b : Field} (h : name q a = name r b) :
    q = r ∧ a = b := by
  have hl := congrArg String.toList h
  rw [toList_name, toList_name] at hl
  obtain ⟨hq, hab⟩ := append_cons_inj (underscore_not_mem a) (underscore_not_mem b) hl
  refine ⟨?_, Field.name_inj (String.toList_inj.1 hab)⟩
  obtain ⟨q, hq'⟩ := q
  obtain ⟨r, hr'⟩ := r
  obtain rfl : q = r := String.toList_inj.1 (List.append_cancel_right hq)
  rfl

theorem name_ne {q : Qualifier} {a b : Field} (h : a ≠ b) : name q a ≠ name q b :=
  fun heq => h (name_inj heq).2

/-! ## Values of a period -/

section

variable {q : Qualifier} {p : Period}

/-- The variables of some fields that a period has a value for. -/
theorem get?_filterMap_value (field : Field) (fields : List Field) :
    Json.Members.get? (name q field)
        (fields.filterMap fun field => (p.value? field).map (name q field, ·)) =
      if field ∈ fields then p.value? field else none := by
  induction fields with
  | nil => rfl
  | cons other rest ih =>
    rw [List.filterMap_cons]
    by_cases h : field = other
    · subst h
      cases hv : p.value? field with
      | none =>
        simp only [Option.map_none, ih, hv]
        simp
      | some v => simp [Json.Members.get?]
    · cases hv : p.value? other with
      | none =>
        simp only [Option.map_none, ih]
        simp [h]
      | some v =>
        simp only [Option.map_some, Json.Members.get?, if_neg (name_ne (Ne.symm h)), ih]
        simp [h]

theorem get?_values (field : Field) :
    Json.Members.get? (name q field) (values q p) = p.value? field := by
  rw [values, get?_filterMap_value, if_pos (Field.mem_all field)]

theorem map_fst_values_sublist (fields : List Field) :
    ((fields.filterMap fun field => (p.value? field).map (name q field, ·)).map Prod.fst).Sublist
      (fields.map (name q)) := by
  induction fields with
  | nil => exact List.Sublist.refl _
  | cons field rest ih =>
    rw [List.filterMap_cons, List.map_cons]
    cases p.value? field with
    | none => exact ih.cons _
    | some v => exact ih.cons_cons _

theorem nodup_values : ((values q p).map Prod.fst).Nodup := by
  refine List.Nodup.sublist (map_fst_values_sublist Field.all) ?_
  have hall : Field.all.Nodup := by decide
  exact List.Pairwise.map (name q) (fun _ _ => name_ne) hall

theorem eq_name_of_mem_values {m : String × Json} (h : m ∈ values q p) :
    ∃ field, m.1 = name q field := by
  obtain ⟨field, -, hfield⟩ := List.mem_filterMap.1 h
  obtain ⟨v, -, rfl⟩ := Option.map_eq_some_iff.1 hfield
  exact ⟨field, rfl⟩

/-- A name that the period has no value for, be it a variable of the qualifier or not. -/
theorem get?_values_eq_none {key : String}
    (h : ∀ field, key = name q field → p.value? field = none) :
    Json.Members.get? key (values q p) = none := by
  by_cases hown : ∃ field, key = name q field
  · obtain ⟨field, rfl⟩ := hown
    rw [get?_values, h field rfl]
  · apply Json.Members.get?_of_not_mem
    intro hmem
    obtain ⟨m, hm, rfl⟩ := List.mem_map.1 hmem
    exact hown (eq_name_of_mem_values hm)

/-- Complete periods have values for the same variables. -/
theorem map_fst_values (hp : p.Complete) : (values q p).map Prod.fst = Field.all.map (name q) := by
  have h : ∀ fields : List Field,
      (fields.filterMap fun field => (p.value? field).map (name q field, ·)).map Prod.fst =
        fields.map (name q) := by
    intro fields
    induction fields with
    | nil => rfl
    | cons field rest ih =>
      obtain ⟨v, hv⟩ := Option.isSome_iff_exists.1 (hp field)
      rw [List.filterMap_cons, hv]
      simp only [Option.map_some, List.map_cons, ih]
  exact h Field.all

end

/-! ## Binding names -/

section

variable {new new' bindings : Json.Members} {key : String} {v : Json}

theorem assign_cons (m : String × Json) :
    assign (m :: new) bindings = assign new (Json.Members.insert m.1 m.2 bindings) := rfl

theorem map_fst_prefix_assign : bindings.map Prod.fst <+: (assign new bindings).map Prod.fst := by
  induction new generalizing bindings with
  | nil => exact List.prefix_refl _
  | cons m rest ih =>
    rw [assign_cons]
    exact Json.Members.map_fst_prefix_insert.trans ih

theorem mem_map_fst_assign :
    key ∈ (assign new bindings).map Prod.fst ↔
      key ∈ new.map Prod.fst ∨ key ∈ bindings.map Prod.fst := by
  induction new generalizing bindings with
  | nil => simp [assign]
  | cons m rest ih =>
    rw [assign_cons, ih, Json.Members.mem_map_fst_insert, List.map_cons, List.mem_cons]
    constructor
    · rintro (h | h | h)
      · exact .inl (.inr h)
      · exact .inl (.inl h)
      · exact .inr h
    · rintro ((h | h) | h)
      · exact .inr (.inl h)
      · exact .inl h
      · exact .inr (.inr h)

theorem nodup_assign (h : (bindings.map Prod.fst).Nodup) :
    ((assign new bindings).map Prod.fst).Nodup := by
  induction new generalizing bindings with
  | nil => exact h
  | cons m rest ih =>
    rw [assign_cons]
    exact ih (Json.Members.nodup_insert h)

theorem get?_assign_of_not_mem (h : key ∉ new.map Prod.fst) :
    Json.Members.get? key (assign new bindings) = Json.Members.get? key bindings := by
  induction new generalizing bindings with
  | nil => rfl
  | cons m rest ih =>
    rw [List.map_cons, List.mem_cons, not_or] at h
    rw [assign_cons, ih h.2, Json.Members.get?_insert_of_ne h.1]

/-- A name has its new value, or else the one it had. -/
theorem get?_assign (hnew : (new.map Prod.fst).Nodup) :
    Json.Members.get? key (assign new bindings) =
      (Json.Members.get? key new).or (Json.Members.get? key bindings) := by
  induction new generalizing bindings with
  | nil => rfl
  | cons m rest ih =>
    rw [List.map_cons, List.nodup_cons] at hnew
    by_cases hk : m.1 = key
    · subst hk
      rw [assign_cons, get?_assign_of_not_mem hnew.1, Json.Members.get?_insert_self]
      simp [Json.Members.get?]
    · rw [assign_cons, ih hnew.2, Json.Members.get?_insert_of_ne (Ne.symm hk)]
      simp [Json.Members.get?, hk]

/-- What is bound to a name, by order: its first value is the new one, and later ones are kept. -/
theorem ofKey_assign (hnew : (new.map Prod.fst).Nodup) :
    Json.Members.ofKey key (assign new bindings) =
      match Json.Members.get? key new with
      | some v => Json.Members.insert key v (Json.Members.ofKey key bindings)
      | none => Json.Members.ofKey key bindings := by
  induction new generalizing bindings with
  | nil => rfl
  | cons m rest ih =>
    rw [List.map_cons, List.nodup_cons] at hnew
    rw [assign_cons, ih hnew.2]
    by_cases hk : m.1 = key
    · subst hk
      rw [Json.Members.get?_of_not_mem hnew.1, Json.Members.ofKey_insert_self]
      simp [Json.Members.get?]
    · rw [Json.Members.ofKey_insert_of_ne hk]
      simp [Json.Members.get?, hk]

/-- A name that is bound may be changed before or after other names. -/
theorem insert_assign (hbound : key ∈ bindings.map Prod.fst) (hnew : key ∉ new.map Prod.fst) :
    Json.Members.insert key v (assign new bindings) =
      assign new (Json.Members.insert key v bindings) := by
  induction new generalizing bindings with
  | nil => rfl
  | cons m rest ih =>
    rw [List.map_cons, List.mem_cons, not_or] at hnew
    rw [assign_cons, assign_cons, ih (Json.Members.mem_map_fst_insert.2 (.inr hbound)) hnew.2,
      Json.Members.insert_comm_of_mem hnew.1 hbound]

/-- Of two assignments to the same names only the later one is seen. -/
theorem assign_assign (hkeys : new'.map Prod.fst = new.map Prod.fst)
    (hnew : (new.map Prod.fst).Nodup) :
    assign new' (assign new bindings) = assign new' bindings := by
  induction new generalizing new' bindings with
  | nil =>
    obtain rfl := List.map_eq_nil_iff.1 hkeys
    rfl
  | cons m rest ih =>
    cases new' with
    | nil => cases hkeys
    | cons m' rest' =>
      obtain ⟨hm, hrest⟩ := List.cons.inj hkeys
      rw [List.map_cons, List.nodup_cons] at hnew
      have hbound : m.1 ∈ (Json.Members.insert m.1 m.2 bindings).map Prod.fst :=
        Json.Members.mem_map_fst_insert.2 (.inl rfl)
      -- The first name is bound, so its second value may be given before the other first ones.
      calc assign (m' :: rest') (assign (m :: rest) bindings)
          = assign rest' (Json.Members.insert m.1 m'.2
              (assign rest (Json.Members.insert m.1 m.2 bindings))) := by
            rw [assign_cons, assign_cons, hm]
        _ = assign rest' (assign rest (Json.Members.insert m.1 m'.2 bindings)) := by
            rw [insert_assign hbound hnew.1, Json.Members.insert_insert]
        _ = assign rest' (Json.Members.insert m.1 m'.2 bindings) := ih hrest hnew.2
        _ = assign (m' :: rest') bindings := by rw [assign_cons, hm]

/-- Names that are not bound are bound in the order in which they come. -/
theorem assign_nil (hnew : (new.map Prod.fst).Nodup) : assign new [] = new :=
  Json.Members.foldl_insert_nil hnew

end

/-! ## Setting a period -/

section

variable {q : Qualifier} {p p' : Period} {bindings : Json.Members}

theorem get?_assign_values (field : Field) :
    Json.Members.get? (name q field) (assign (values q p) bindings) =
      (p.value? field).or (Json.Members.get? (name q field) bindings) := by
  rw [get?_assign nodup_values, get?_values]

theorem assign_values_assign_values (hp : p.Complete) (hp' : p'.Complete) :
    assign (values q p') (assign (values q p) bindings) = assign (values q p') bindings := by
  refine assign_assign ?_ nodup_values
  rw [map_fst_values hp', map_fst_values hp]

end

end Chronomap.Filter.Variable
