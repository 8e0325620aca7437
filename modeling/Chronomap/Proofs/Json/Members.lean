import Chronomap.Json.Basic

/-!
# Giving a key of an object a value

`Members.insert` either replaces one value in its place or adds one member at the end
(`insert_update`); all other members, and the order of all keys, are kept, and no member moves
(`getElem?_insert`).  Two values that are given to different keys may be given in either order if
one of the keys is there already (`insert_comm_of_mem`), and otherwise the results differ in
nothing but the order of different keys (`SameUpToOrder`).  Members that differ so have the same
beginning if their first keys are the same (`SameUpToOrder.of_append`).
-/

namespace Chronomap.Json.Members

variable {key other : String} {v w : Json} {ms : Members}

/-! ## The effect of one value -/

/-- `after` is `before` with a value for a key: in the place of the key, if `before` has it, and
as the last member otherwise. -/
inductive Update (key : String) (value : Json) : (before after : Members) → Prop
  | replace (ms rest : Members) (old : Json) (new : key ∉ ms.map Prod.fst) :
      Update key value (ms ++ (key, old) :: rest) (ms ++ (key, value) :: rest)
  | append (ms : Members) (new : key ∉ ms.map Prod.fst) :
      Update key value ms (ms ++ [(key, value)])

theorem Update.cons {before after : Members} (m : String × Json) (ne : m.1 ≠ key)
    (h : Update key v before after) : Update key v (m :: before) (m :: after) := by
  have extend : ∀ {ms : Members}, key ∉ ms.map Prod.fst → key ∉ (m :: ms).map Prod.fst := by
    intro ms new
    rw [List.map_cons, List.mem_cons, not_or]
    exact ⟨ne.symm, new⟩
  cases h with
  | replace ms rest old new => exact .replace (m :: ms) rest old (extend new)
  | append ms new => exact .append (m :: before) (extend new)

theorem insert_update (key : String) (v : Json) (ms : Members) :
    Update key v ms (insert key v ms) := by
  induction ms with
  | nil => exact .append [] List.not_mem_nil
  | cons m rest ih =>
    obtain ⟨k, old⟩ := m
    by_cases hk : k = key
    · subst hk
      rw [insert, if_pos rfl]
      exact .replace [] rest old List.not_mem_nil
    · rw [insert, if_neg hk]
      exact ih.cons (k, old) hk

/-! ## Keys -/

theorem map_fst_insert_of_mem (h : key ∈ ms.map Prod.fst) :
    (insert key v ms).map Prod.fst = ms.map Prod.fst := by
  induction ms with
  | nil => cases h
  | cons m rest ih =>
    by_cases hk : m.1 = key
    · rw [insert, if_pos hk]
      rfl
    · have hrest : key ∈ rest.map Prod.fst := by
        rcases List.mem_cons.1 h with heq | hmem
        · exact absurd heq.symm hk
        · exact hmem
      rw [insert, if_neg hk, List.map_cons, List.map_cons, ih hrest]

theorem insert_of_not_mem (h : key ∉ ms.map Prod.fst) :
    insert key v ms = ms ++ [(key, v)] := by
  induction ms with
  | nil => rfl
  | cons m rest ih =>
    rw [List.map_cons, List.mem_cons, not_or] at h
    rw [insert, if_neg (Ne.symm h.1), ih h.2]
    rfl

theorem mem_map_fst_insert :
    other ∈ (insert key v ms).map Prod.fst ↔ other = key ∨ other ∈ ms.map Prod.fst := by
  by_cases h : key ∈ ms.map Prod.fst
  · rw [map_fst_insert_of_mem h]
    constructor
    · exact .inr
    · rintro (rfl | hmem)
      · exact h
      · exact hmem
  · rw [insert_of_not_mem h, List.map_append, List.mem_append, or_comm]
    simp

/-- The keys stay in front, in their order. -/
theorem map_fst_prefix_insert : ms.map Prod.fst <+: (insert key v ms).map Prod.fst := by
  by_cases h : key ∈ ms.map Prod.fst
  · exact ⟨[], by rw [List.append_nil, map_fst_insert_of_mem h]⟩
  · rw [insert_of_not_mem h, List.map_append]
    exact List.prefix_append _ _

theorem nodup_insert (h : (ms.map Prod.fst).Nodup) :
    ((insert key v ms).map Prod.fst).Nodup := by
  by_cases hk : key ∈ ms.map Prod.fst
  · rwa [map_fst_insert_of_mem hk]
  · rw [insert_of_not_mem hk, List.map_append, List.nodup_append]
    refine ⟨h, by simp, ?_⟩
    rintro k hmem _ hnew rfl
    rw [List.mem_singleton.1 hnew] at hmem
    exact hk hmem

/-! ## Places -/

/-- Only the first member with the key gets the value; every other one stays in its place. -/
theorem getElem?_insert {i : Nat} {m : String × Json} (h : ms[i]? = some m) :
    (insert key v ms)[i]? =
      some (m.1, if m.1 = key ∧ key ∉ (ms.take i).map Prod.fst then v else m.2) := by
  induction ms generalizing i with
  | nil => cases h
  | cons first rest ih =>
    obtain ⟨k, old⟩ := first
    by_cases hk : k = key
    · subst hk
      rw [insert, if_pos rfl]
      cases i with
      | zero =>
        obtain rfl := Option.some.inj h
        simp
      | succ i =>
        rw [List.getElem?_cons_succ] at h ⊢
        simp [h]
    · rw [insert, if_neg hk]
      cases i with
      | zero =>
        obtain rfl := Option.some.inj h
        simp [hk]
      | succ i =>
        rw [List.getElem?_cons_succ] at h ⊢
        simp [ih h, Ne.symm hk]

/-- The keys in front of a place stay. -/
theorem map_fst_take_insert {i : Nat} (h : i ≤ ms.length) :
    ((insert key v ms).take i).map Prod.fst = (ms.take i).map Prod.fst := by
  obtain ⟨new, hnew⟩ : ms.map Prod.fst <+: (insert key v ms).map Prod.fst :=
    map_fst_prefix_insert
  rw [List.map_take, List.map_take, ← hnew, List.take_append_of_le_length]
  rwa [List.length_map]

/-! ## Two values -/

/-- A value for a key that is there does not change where another key is put. -/
theorem insert_comm_of_mem (ne : key ≠ other) (h : key ∈ ms.map Prod.fst) :
    insert key v (insert other w ms) = insert other w (insert key v ms) := by
  induction ms with
  | nil => cases h
  | cons m rest ih =>
    obtain ⟨k, old⟩ := m
    by_cases hk : k = key
    · subst hk
      simp [insert, ne]
    · have hrest : key ∈ rest.map Prod.fst := by
        rcases List.mem_cons.1 h with heq | hmem
        · exact absurd heq.symm hk
        · exact hmem
      by_cases ho : k = other
      · subst ho
        simp [insert, hk]
      · simp [insert, hk, ho, ih hrest]

/-! ## Members in two parts -/

theorem insert_append_of_mem {front back : Members} (h : key ∈ front.map Prod.fst) :
    insert key v (front ++ back) = insert key v front ++ back := by
  induction front with
  | nil => cases h
  | cons m rest ih =>
    obtain ⟨k, old⟩ := m
    by_cases hk : k = key
    · simp [insert, hk]
    · have hrest : key ∈ rest.map Prod.fst := by
        rcases List.mem_cons.1 h with heq | hmem
        · exact absurd heq.symm hk
        · exact hmem
      simp [insert, hk, ih hrest]

theorem insert_append_of_not_mem {front back : Members} (h : key ∉ front.map Prod.fst) :
    insert key v (front ++ back) = front ++ insert key v back := by
  induction front with
  | nil => rfl
  | cons m rest ih =>
    rw [List.map_cons, List.mem_cons, not_or] at h
    rw [List.cons_append, insert, if_neg (Ne.symm h.1), ih h.2, List.cons_append]

/-- Keys that come one after the other are put in the order in which they come. -/
theorem foldl_insert_nil (hms : (ms.map Prod.fst).Nodup) :
    ms.foldl (fun acc m => insert m.1 m.2 acc) [] = ms := by
  -- What has been inserted stands in front and has none of the keys that are left.
  have h : ∀ front : Members, (∀ m ∈ ms, m.1 ∉ front.map Prod.fst) →
      ms.foldl (fun acc m => insert m.1 m.2 acc) front = front ++ ms := by
    induction ms with
    | nil =>
      intro front _
      rw [List.append_nil]
      rfl
    | cons m rest ih =>
      intro front hfree
      rw [List.map_cons, List.nodup_cons] at hms
      rw [List.foldl_cons, insert_of_not_mem (hfree m List.mem_cons_self), ih hms.2]
      · simp
      · intro m' hm' hmem
        rw [List.map_append, List.mem_append] at hmem
        rcases hmem with hold | hlast
        · exact hfree m' (List.mem_cons_of_mem m hm') hold
        · have hkey : m'.1 = m.1 := by simpa using hlast
          exact hms.1 (hkey ▸ List.mem_map_of_mem hm')
  exact h [] (by simp)

theorem eq_or_mem_of_mem_insert {m : String × Json} (h : m ∈ insert key v ms) :
    m = (key, v) ∨ m ∈ ms := by
  induction ms with
  | nil => exact .inl (List.mem_singleton.1 h)
  | cons m' rest ih =>
    obtain ⟨k, old⟩ := m'
    by_cases hk : k = key
    · subst hk
      rw [insert, if_pos rfl] at h
      rcases List.mem_cons.1 h with heq | hrest
      · exact .inl heq
      · exact .inr (List.mem_cons_of_mem _ hrest)
    · rw [insert, if_neg hk] at h
      rcases List.mem_cons.1 h with heq | hrest
      · exact .inr (heq ▸ List.mem_cons_self)
      · rcases ih hrest with heq | hmem
        · exact .inl heq
        · exact .inr (List.mem_cons_of_mem _ hmem)

/-! ## The order of different keys -/

/-- The members with a key, in order. -/
def ofKey (key : String) (ms : Members) : Members := ms.filter fun m => m.1 = key

/-- Members that differ at most in how members with different keys are ordered. -/
def SameUpToOrder (ms ns : Members) : Prop := ∀ key, ofKey key ms = ofKey key ns

theorem ofKey_cons_self (m : String × Json) : ofKey m.1 (m :: ms) = m :: ofKey m.1 ms := by
  simp [ofKey]

theorem ofKey_cons_of_ne {m : String × Json} (ne : m.1 ≠ key) :
    ofKey key (m :: ms) = ofKey key ms := by
  simp [ofKey, ne]

theorem ofKey_insert_self : ofKey key (insert key v ms) = insert key v (ofKey key ms) := by
  induction ms with
  | nil => simp [insert, ofKey]
  | cons m rest ih =>
    obtain ⟨k, old⟩ := m
    by_cases hk : k = key
    · subst hk
      simp [insert, ofKey]
    · rw [insert, if_neg hk, ofKey_cons_of_ne hk, ofKey_cons_of_ne hk, ih]

theorem ofKey_insert_of_ne (ne : other ≠ key) : ofKey key (insert other v ms) = ofKey key ms := by
  induction ms with
  | nil => simp [insert, ofKey, ne]
  | cons m rest ih =>
    obtain ⟨k, old⟩ := m
    by_cases hk : k = other
    · subst hk
      rw [insert, if_pos rfl, ofKey_cons_of_ne ne, ofKey_cons_of_ne ne]
    · rw [insert, if_neg hk]
      by_cases hkey : k = key
      · subst hkey
        rw [ofKey_cons_self (k, old), ofKey_cons_self (k, old), ih]
      · rw [ofKey_cons_of_ne hkey, ofKey_cons_of_ne hkey, ih]

theorem mem_of_get? (h : get? key ms = some v) : (key, v) ∈ ms := by
  induction ms with
  | nil => cases h
  | cons m rest ih =>
    obtain ⟨k, w⟩ := m
    by_cases hk : k = key
    · subst hk
      rw [get?, if_pos rfl] at h
      rw [Option.some.inj h]
      exact List.mem_cons_self
    · rw [get?, if_neg hk] at h
      exact List.mem_cons_of_mem _ (ih h)

theorem get?_of_not_mem (h : key ∉ ms.map Prod.fst) : get? key ms = none := by
  induction ms with
  | nil => rfl
  | cons m rest ih =>
    rw [List.map_cons, List.mem_cons, not_or] at h
    rw [get?, if_neg (Ne.symm h.1), ih h.2]

/-- Where the keys in front are the same, the members in front are, and those behind differ at
most in their order. -/
theorem SameUpToOrder.of_append {front front' back back' : Members}
    (h : SameUpToOrder (front ++ back) (front' ++ back'))
    (keys : front.map Prod.fst = front'.map Prod.fst) :
    front = front' ∧ SameUpToOrder back back' := by
  induction front generalizing front' with
  | nil =>
    obtain rfl := List.map_eq_nil_iff.1 keys.symm
    exact ⟨rfl, h⟩
  | cons m front ih =>
    cases front' with
    | nil => cases keys
    | cons m' front' =>
      obtain ⟨hkey, hkeys⟩ := List.cons.inj keys
      -- The members with the first key are the same in the same order, so their first ones are.
      have hfirst : m :: ofKey m.1 (front ++ back) = m' :: ofKey m.1 (front' ++ back') := by
        have h1 := h m.1
        rwa [List.cons_append, List.cons_append, ofKey_cons_self, hkey, ofKey_cons_self, ← hkey]
          at h1
      obtain rfl := (List.cons.inj hfirst).1
      have hrest : SameUpToOrder (front ++ back) (front' ++ back') := by
        intro key
        by_cases hk : m.1 = key
        · subst hk
          exact (List.cons.inj hfirst).2
        · have hother := h key
          rwa [List.cons_append, List.cons_append, ofKey_cons_of_ne hk, ofKey_cons_of_ne hk]
            at hother
      obtain ⟨rfl, hback⟩ := ih hrest hkeys
      exact ⟨rfl, hback⟩

end Chronomap.Json.Members
