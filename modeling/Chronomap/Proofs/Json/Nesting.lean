import Chronomap.Json.Parser
import Chronomap.Proofs.Json.Members

/-!
# What is read

A value that has been read has no key twice in one object, and it nests no deeper than the reader
was allowed to go:

    Json.parse? depth text = some v → v.Within depth      (parse?_sound)

where `v.Within depth` says both.  An object stays within a depth when a key is given a value that
leaves room for it.
-/

namespace Chronomap.Json

/-! ## Keys -/

/-- No object in a value has a key twice. -/
inductive WellKeyed : Json → Prop
  | null : WellKeyed null
  | bool (b : Bool) : WellKeyed (bool b)
  | num (n : Number) : WellKeyed (num n)
  | str (s : String) : WellKeyed (str s)
  | arr {xs : List Json} (items : ∀ x ∈ xs, WellKeyed x) : WellKeyed (arr xs)
  | obj {ms : Members} (distinct : (ms.map Prod.fst).Nodup) (values : ∀ m ∈ ms, WellKeyed m.2) :
      WellKeyed (obj ms)

theorem wellKeyed_arr_iff {xs : List Json} : (arr xs).WellKeyed ↔ ∀ x ∈ xs, x.WellKeyed := by
  constructor
  · rintro (_ | _ | _ | _ | items)
    exact items
  · exact .arr

theorem wellKeyed_obj_iff {ms : Members} :
    (obj ms).WellKeyed ↔ (ms.map Prod.fst).Nodup ∧ ∀ m ∈ ms, m.2.WellKeyed := by
  constructor
  · rintro (_ | _ | _ | _ | _ | ⟨distinct, values⟩)
    exact ⟨distinct, values⟩
  · exact fun h => .obj h.1 h.2

/-! ## Depth -/

mutual

/-- How many arrays and objects of a value are within each other. -/
def nesting : Json → Nat
  | arr xs => nestingItems xs + 1
  | obj ms => nestingMembers ms + 1
  | _ => 0

def nestingItems : List Json → Nat
  | [] => 0
  | x :: xs => max (nesting x) (nestingItems xs)

def nestingMembers : List (String × Json) → Nat
  | [] => 0
  | (_, x) :: ms => max (nesting x) (nestingMembers ms)

end

theorem nestingItems_le_iff {xs : List Json} {depth : Nat} :
    nestingItems xs ≤ depth ↔ ∀ x ∈ xs, x.nesting ≤ depth := by
  induction xs with
  | nil => simp [nestingItems]
  | cons x xs ih => rw [nestingItems, Nat.max_le, ih, List.forall_mem_cons]

theorem nestingMembers_le_iff {ms : Members} {depth : Nat} :
    nestingMembers ms ≤ depth ↔ ∀ m ∈ ms, m.2.nesting ≤ depth := by
  induction ms with
  | nil => simp [nestingMembers]
  | cons m ms ih => rw [nestingMembers, Nat.max_le, ih, List.forall_mem_cons]

theorem nesting_arr_le_iff {xs : List Json} {depth : Nat} :
    (arr xs).nesting ≤ depth + 1 ↔ ∀ x ∈ xs, x.nesting ≤ depth := by
  rw [nesting, Nat.add_le_add_iff_right, nestingItems_le_iff]

theorem nesting_obj_le_iff {ms : Members} {depth : Nat} :
    (obj ms).nesting ≤ depth + 1 ↔ ∀ m ∈ ms, m.2.nesting ≤ depth := by
  rw [nesting, Nat.add_le_add_iff_right, nestingMembers_le_iff]

/-! ## Values within a depth -/

/-- A value is well keyed and nests no deeper than allowed. -/
structure Within (depth : Nat) (v : Json) : Prop where
  wellKeyed : v.WellKeyed
  nesting_le : v.nesting ≤ depth

section

variable {depth : Nat}

theorem Within.mono {v : Json} (h : v.Within depth) {depth' : Nat} (hle : depth ≤ depth') :
    v.Within depth' :=
  ⟨h.wellKeyed, Nat.le_trans h.nesting_le hle⟩

theorem within_null : null.Within depth := ⟨.null, Nat.zero_le _⟩

theorem within_bool (b : Bool) : (bool b).Within depth := ⟨.bool b, Nat.zero_le _⟩

theorem within_num (n : Number) : (num n).Within depth := ⟨.num n, Nat.zero_le _⟩

theorem within_str (s : String) : (str s).Within depth := ⟨.str s, Nat.zero_le _⟩

theorem within_arr_iff {xs : List Json} :
    (arr xs).Within (depth + 1) ↔ ∀ x ∈ xs, x.Within depth := by
  constructor
  · rintro ⟨hkeys, hdepth⟩ x hx
    exact ⟨wellKeyed_arr_iff.1 hkeys x hx, nesting_arr_le_iff.1 hdepth x hx⟩
  · intro h
    exact ⟨.arr fun x hx => (h x hx).wellKeyed,
      nesting_arr_le_iff.2 fun x hx => (h x hx).nesting_le⟩

theorem within_obj_iff {ms : Members} :
    (obj ms).Within (depth + 1) ↔ (ms.map Prod.fst).Nodup ∧ ∀ m ∈ ms, m.2.Within depth := by
  constructor
  · rintro ⟨hkeys, hdepth⟩
    obtain ⟨hnodup, hvalues⟩ := wellKeyed_obj_iff.1 hkeys
    exact ⟨hnodup, fun m hm => ⟨hvalues m hm, nesting_obj_le_iff.1 hdepth m hm⟩⟩
  · rintro ⟨hnodup, h⟩
    exact ⟨.obj hnodup fun m hm => (h m hm).wellKeyed,
      nesting_obj_le_iff.2 fun m hm => (h m hm).nesting_le⟩

end

/-! ## Members -/

/-- A property of the values of members holds after a key has been given such a value. -/
theorem forall_mem_insert {P : Json → Prop} {ms : Members} (h : ∀ m ∈ ms, P m.2) {v : Json}
    (hv : P v) (key : String) : ∀ m ∈ Members.insert key v ms, P m.2 := by
  intro m hm
  rcases Members.eq_or_mem_of_mem_insert hm with rfl | hm
  · exact hv
  · exact h m hm

theorem Within.obj_insert {depth : Nat} {ms : Members} (h : (obj ms).Within (depth + 1)) {v : Json}
    (hv : v.Within depth) (key : String) :
    (obj (Members.insert key v ms)).Within (depth + 1) := by
  obtain ⟨hnodup, hvalues⟩ := within_obj_iff.1 h
  exact within_obj_iff.2 ⟨Members.nodup_insert hnodup, forall_mem_insert hvalues hv key⟩

theorem Within.of_get? {depth : Nat} {ms : Members} (h : (obj ms).Within (depth + 1))
    {key : String} {v : Json} (hv : Members.get? key ms = some v) : v.Within depth :=
  (within_obj_iff.1 h).2 _ (Members.mem_of_get? hv)

/-- The members of an object that has been read. -/
theorem ofMembers_spec {P : Json → Prop} {ms : Members} (h : ∀ m ∈ ms, P m.2) :
    ∃ ns, ofMembers ms = obj ns ∧ (ns.map Prod.fst).Nodup ∧ ∀ m ∈ ns, P m.2 := by
  have step : ∀ (ms ns : Members), (∀ m ∈ ms, P m.2) → (ns.map Prod.fst).Nodup →
      (∀ m ∈ ns, P m.2) →
        ((ms.foldl (fun acc m => Members.insert m.1 m.2 acc) ns).map Prod.fst).Nodup ∧
          ∀ m ∈ ms.foldl (fun acc m => Members.insert m.1 m.2 acc) ns, P m.2 := by
    intro ms
    induction ms with
    | nil => exact fun ns _ hnodup hns => ⟨hnodup, hns⟩
    | cons m ms ih =>
      intro ns hms hnodup hns
      exact ih _ (fun m hm => hms m (List.mem_cons_of_mem _ hm)) (Members.nodup_insert hnodup)
        (forall_mem_insert hns (hms m List.mem_cons_self) m.1)
  exact ⟨_, rfl, step ms [] h List.nodup_nil (by simp)⟩

/-! ## Reading -/

section

variable {α : Type} {P : α → Prop} {item : List Char → Option (α × List Char)} {close : Char}

theorem separated?_sound (h : ∀ cs x rest, item cs = some (x, rest) → P x) {fuel : Nat}
    {cs rest : List Char} {xs : List α} (hread : separated? item close fuel cs = some (xs, rest)) :
    ∀ x ∈ xs, P x := by
  induction fuel generalizing cs xs with
  | zero => cases hread
  | succ fuel ih =>
    unfold separated? at hread
    split at hread
    · cases hread
    · next x cs' hitem =>
      split at hread
      · cases hread
      · split at hread
        · obtain ⟨⟨ys, cs''⟩, hmore, heq⟩ := Option.map_eq_some_iff.1 hread
          obtain ⟨rfl, rfl⟩ := Prod.mk.inj heq
          intro y hy
          rcases List.mem_cons.1 hy with rfl | hy
          · exact h _ _ _ hitem
          · exact ih hmore y hy
        · split at hread
          · obtain ⟨rfl, rfl⟩ := Prod.mk.inj (Option.some.inj hread)
            intro y hy
            rw [List.mem_singleton.1 hy]
            exact h _ _ _ hitem
          · cases hread

theorem bracketed?_sound (h : ∀ cs x rest, item cs = some (x, rest) → P x) {cs rest : List Char}
    {xs : List α} (hread : bracketed? item close cs = some (xs, rest)) : ∀ x ∈ xs, P x := by
  unfold bracketed? at hread
  split at hread
  · cases hread
  · split at hread
    · obtain ⟨rfl, rfl⟩ := Prod.mk.inj (Option.some.inj hread)
      simp
    · exact separated?_sound h hread

end

theorem member?_sound {P : Json → Prop} {value : List Char → Option (Json × List Char)}
    (h : ∀ cs v rest, value cs = some (v, rest) → P v) {cs rest : List Char} {m : String × Json}
    (hread : member? value cs = some (m, rest)) : P m.2 := by
  unfold member? at hread
  split at hread
  · split at hread
    · cases hread
    · split at hread
      · obtain ⟨⟨v, cs'⟩, hvalue, heq⟩ := Option.map_eq_some_iff.1 hread
        obtain ⟨rfl, rfl⟩ := Prod.mk.inj heq
        exact h _ _ _ hvalue
      · cases hread
  · cases hread

/-- A value that has been read is within the depth that it may have. -/
theorem value?_sound (depth : Nat) {cs rest : List Char} {v : Json}
    (h : value? depth cs = some (v, rest)) : v.Within depth := by
  unfold value? at h
  split at h
  · cases depth with
    | zero => cases h
    | succ depth =>
      obtain ⟨⟨ms, cs'⟩, hread, heq⟩ := Option.map_eq_some_iff.1 h
      obtain ⟨rfl, rfl⟩ := Prod.mk.inj heq
      have hvalues := bracketed?_sound (P := fun m => m.2.Within depth)
        (fun _ _ _ => member?_sound fun _ _ _ => value?_sound depth) hread
      obtain ⟨ns, hns, hmembers⟩ := ofMembers_spec hvalues
      rw [hns]
      exact within_obj_iff.2 hmembers
  · cases depth with
    | zero => cases h
    | succ depth =>
      obtain ⟨⟨xs, cs'⟩, hread, heq⟩ := Option.map_eq_some_iff.1 h
      obtain ⟨rfl, rfl⟩ := Prod.mk.inj heq
      exact within_arr_iff.2 (bracketed?_sound (fun _ _ _ => value?_sound depth) hread)
  · obtain ⟨⟨s, cs'⟩, -, heq⟩ := Option.map_eq_some_iff.1 h
    obtain ⟨rfl, rfl⟩ := Prod.mk.inj heq
    exact within_str _
  · obtain ⟨rfl, rfl⟩ := Prod.mk.inj (Option.some.inj h)
    exact within_null
  · obtain ⟨rfl, rfl⟩ := Prod.mk.inj (Option.some.inj h)
    exact within_bool _
  · obtain ⟨rfl, rfl⟩ := Prod.mk.inj (Option.some.inj h)
    exact within_bool _
  · obtain ⟨⟨n, cs'⟩, -, heq⟩ := Option.map_eq_some_iff.1 h
    obtain ⟨rfl, rfl⟩ := Prod.mk.inj heq
    exact within_num _

theorem parse?_sound {depth : Nat} {text : String} {v : Json} (h : parse? depth text = some v) :
    v.Within depth := by
  unfold parse? at h
  split at h
  · next hvalue =>
    split at h
    · obtain rfl := Option.some.inj h
      exact value?_sound depth hvalue
    · cases h
  · cases h

end Chronomap.Json
