import Chronomap.MapStyle
import Chronomap.Proofs.Json.Members

/-!
# Layers and their filters

A layer is found as the first item with its id, and giving it a filter changes this item and
nothing else.  No filter has a say in which items are layers, which ids they have and which of
them draw data:

    (modifyFirst here change xs)[i]?
      = if xs.findIdx? here = some i then xs[i]?.map change else xs[i]?   (getElem?_modifyFirst)
    (modifyFirst here change xs).map g = xs.map g,
      if g looks past the change                                             (map_modifyFirst)
-/

namespace Chronomap

/-! ## The first item -/

section

variable {α β : Type} {here other : α → Bool} {change change' : α → α} {xs : List α}

theorem getElem?_modifyFirst (xs : List α) (i : Nat) :
    (modifyFirst here change xs)[i]? =
      if xs.findIdx? here = some i then xs[i]?.map change else xs[i]? := by
  induction xs generalizing i with
  | nil => rfl
  | cons x xs ih =>
    rw [modifyFirst, List.findIdx?_cons]
    by_cases hx : here x = true
    · rw [if_pos hx, if_pos hx]
      cases i with
      | zero => rfl
      | succ i => rfl
    · rw [if_neg hx, if_neg hx]
      cases i with
      | zero => simp
      | succ i =>
        rw [List.getElem?_cons_succ, ih i, List.getElem?_cons_succ]
        simp

theorem map_modifyFirst {g : α → β} (h : ∀ x, g (change x) = g x) (xs : List α) :
    (modifyFirst here change xs).map g = xs.map g := by
  induction xs with
  | nil => rfl
  | cons x xs ih =>
    rw [modifyFirst]
    split
    · rw [List.map_cons, List.map_cons, h]
    · rw [List.map_cons, List.map_cons, ih]

/-- Only the change of the first item matters. -/
theorem modifyFirst_congr (h : ∀ x, xs.find? here = some x → change x = change' x) :
    modifyFirst here change xs = modifyFirst here change' xs := by
  induction xs with
  | nil => rfl
  | cons x xs ih =>
    rw [modifyFirst, modifyFirst]
    by_cases hx : here x = true
    · rw [if_pos hx, if_pos hx, h x (by rw [List.find?_cons, hx])]
    · rw [if_neg hx, if_neg hx, ih]
      intro y hy
      exact h y (by rw [List.find?_cons, Bool.eq_false_iff.2 hx]; exact hy)

theorem modifyFirst_eq_self (h : ∀ x, xs.find? here = some x → change x = x) :
    modifyFirst here change xs = xs := by
  induction xs with
  | nil => rfl
  | cons x xs ih =>
    rw [modifyFirst]
    by_cases hx : here x = true
    · rw [if_pos hx, h x (by rw [List.find?_cons, hx])]
    · rw [if_neg hx, ih]
      intro y hy
      exact h y (by rw [List.find?_cons, Bool.eq_false_iff.2 hx]; exact hy)

theorem modifyFirst_modifyFirst (h : ∀ x, here (change x) = here x) :
    modifyFirst here change' (modifyFirst here change xs) =
      modifyFirst here (fun x => change' (change x)) xs := by
  induction xs with
  | nil => rfl
  | cons x xs ih =>
    rw [modifyFirst, modifyFirst]
    by_cases hx : here x = true
    · rw [if_pos hx, if_pos hx, modifyFirst, h, if_pos hx]
    · rw [if_neg hx, if_neg hx, modifyFirst, if_neg hx, ih]

theorem find?_modifyFirst_self (h : ∀ x, here (change x) = here x) :
    (modifyFirst here change xs).find? here = (xs.find? here).map change := by
  induction xs with
  | nil => rfl
  | cons x xs ih =>
    rw [modifyFirst]
    by_cases hx : here x = true
    · rw [if_pos hx, List.find?_cons, List.find?_cons, h, hx]
      rfl
    · rw [if_neg hx, List.find?_cons, List.find?_cons, Bool.eq_false_iff.2 hx]
      exact ih

/-- What is looked for is not seen where the change is made, neither before nor after it. -/
theorem find?_modifyFirst_of_ne (h : ∀ x, other (change x) = other x)
    (ne : ∀ x, here x = true → other x = false) :
    (modifyFirst here change xs).find? other = xs.find? other := by
  induction xs with
  | nil => rfl
  | cons x xs ih =>
    rw [modifyFirst]
    by_cases hx : here x = true
    · rw [if_pos hx, List.find?_cons, List.find?_cons, h, ne x hx]
    · rw [if_neg hx, List.find?_cons, List.find?_cons, ih]

end

/-! ## Items -/

theorem get?_withFilter {key : String} (ne : key ≠ "filter") (v item : Json) :
    (withFilter v item).get? key = item.get? key := by
  cases item with
  | obj ms => exact Json.Members.get?_insert_of_ne ne v ms
  | null | bool _ | num _ | str _ | arr _ => rfl

theorem withFilter_withFilter (v w item : Json) :
    withFilter w (withFilter v item) = withFilter w item := by
  cases item with
  | obj ms => exact congrArg Json.obj (Json.Members.insert_insert "filter" v w ms)
  | null | bool _ | num _ | str _ | arr _ => rfl

theorem hasId_withFilter (id : String) (v item : Json) :
    MapStyle.hasId id (withFilter v item) = MapStyle.hasId id item := by
  rw [MapStyle.hasId, MapStyle.hasId, get?_withFilter (by decide)]

theorem ofJson?_withFilter (v item : Json) :
    Layer.ofJson? (withFilter v item) = Layer.ofJson? item := by
  rw [Layer.ofJson?, Layer.ofJson?, get?_withFilter (by decide), get?_withFilter (by decide)]

/-- An item with an id is an object. -/
theorem exists_members_of_get? {key : String} {item v : Json} (h : item.get? key = some v) :
    ∃ ms, item = .obj ms := by
  cases item with
  | obj ms => exact ⟨ms, rfl⟩
  | null | bool _ | num _ | str _ | arr _ => cases h

/-- A layer with the given id that draws data. -/
def DrawsData (id : String) (item : Json) : Prop :=
  item.get? "id" = some (.str id) ∧ ∃ source, item.get? "source-layer" = some (.str source)

def drawsData (item : Json) : Bool :=
  ((item.get? "id").bind Json.str?).isSome && ((item.get? "source-layer").bind Json.str?).isSome

theorem str?_eq_some_iff {v : Json} {s : String} : v.str? = some s ↔ v = .str s := by
  cases v <;> simp [Json.str?]

theorem ofJson?_eq_some_iff {item : Json} {layer : Layer} :
    Layer.ofJson? item = some layer ↔
      item.get? "id" = some (.str layer.id) ∧
        (item.get? "source-layer").bind Json.str? = layer.sourceLayer := by
  obtain ⟨id, source⟩ := layer
  unfold Layer.ofJson?
  split
  · next other h => simp [h]
  · next h =>
    constructor
    · intro hnone
      cases hnone
    · rintro ⟨hid, -⟩
      exact absurd hid (h id)

theorem drawsData_of_eq_none {item : Json} (h : Layer.ofJson? item = none) :
    drawsData item = false := by
  have hid : (item.get? "id").bind Json.str? = none := by
    cases hv : item.get? "id" with
    | none => rfl
    | some v =>
      cases v with
      | str id => simp [Layer.ofJson?, hv] at h
      | null | bool _ | num _ | arr _ | obj _ => rfl
  rw [drawsData, hid]
  rfl

theorem drawsData_of_eq_some {item : Json} {layer : Layer} (h : Layer.ofJson? item = some layer) :
    drawsData item = layer.sourceLayer.isSome := by
  obtain ⟨hid, hsource⟩ := ofJson?_eq_some_iff.1 h
  rw [drawsData, hid, hsource]
  rfl

namespace MapStyle

/-- The layers are seen in the items one by one. -/
theorem layers_eq_of_map_eq {s s' : MapStyle}
    (h : s'.items.map Layer.ofJson? = s.items.map Layer.ofJson?) : s'.layers = s.layers := by
  have hmap : ∀ xs : List Json, xs.filterMap Layer.ofJson? =
      (xs.map Layer.ofJson?).filterMap fun layer => layer := by
    intro xs
    rw [List.filterMap_map]
    rfl
  rw [layers, layers, hmap, h, ← hmap]

/-- The first item with an id is an object. -/
theorem exists_members_of_findIdx? {xs : List Json} {id : String} {i : Nat}
    (h : xs.findIdx? (hasId id) = some i) : ∃ ms, xs[i]? = some (.obj ms) := by
  obtain ⟨hi, hhas, -⟩ := List.findIdx?_eq_some_iff_getElem.1 h
  obtain ⟨ms, hms⟩ := exists_members_of_get? (of_decide_eq_true hhas)
  exact ⟨ms, by rw [List.getElem?_eq_getElem hi, hms]⟩

/-! ## Layers that draw data -/

/-- The ids of the layers that draw data are the ids of items that draw data. -/
theorem mem_dataLayers_iff {s : MapStyle} {id : String} :
    (∃ layer ∈ s.dataLayers, layer.id = id) ↔ ∃ item ∈ s.items, DrawsData id item := by
  unfold dataLayers layers
  simp only [List.mem_filter, List.mem_filterMap, ofJson?_eq_some_iff]
  constructor
  · rintro ⟨layer, ⟨⟨item, hitem, hid, hsource⟩, hsome⟩, rfl⟩
    obtain ⟨source, h⟩ := Option.isSome_iff_exists.1 hsome
    rw [h, Option.bind_eq_some_iff] at hsource
    obtain ⟨v, hv, hstr⟩ := hsource
    exact ⟨item, hitem, hid, source, by rw [hv, str?_eq_some_iff.1 hstr]⟩
  · rintro ⟨item, hitem, hid, source, hsource⟩
    refine ⟨⟨id, some source⟩, ⟨⟨item, hitem, hid, ?_⟩, rfl⟩, rfl⟩
    rw [hsource]
    rfl

theorem length_dataLayers (s : MapStyle) : s.dataLayers.length = s.items.countP drawsData := by
  unfold dataLayers layers
  induction s.items with
  | nil => rfl
  | cons item items ih =>
    rw [List.filterMap_cons, List.countP_cons, ← ih]
    cases h : Layer.ofJson? item with
    | none => simp [drawsData_of_eq_none h]
    | some layer =>
      rw [drawsData_of_eq_some h, List.filter_cons]
      cases layer.sourceLayer <;> rfl

end MapStyle

end Chronomap
