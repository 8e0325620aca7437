import Chronomap.Proofs.Style.Runs

/-!
# What a period leaves alone

A pass guards the first item with the id of each layer that draws data, once for each such layer,
and no other item:

    (s.constrain q p).style.items[i]? = s.items[i]?.map (Nat.repeat (guardItem q p) (s.visits i))
                                                                        (getElem?_items_constrain)

An item without a source layer is not visited on its own account, but it is visited if a layer
further down draws data and has its id (`kept_without_source`).  This holds for every period,
whichever of its fields are missing.
-/

namespace Chronomap

/-! ## How often an item is guarded -/

/-- Of several guards around the filter of an item the last one is seen. -/
theorem repeat_guardItem_succ (q : Qualifier) (p : Period) (n : Nat) (item : Json) :
    ∃ filter, Nat.repeat (guardItem q p) (n + 1) item =
      withFilter (Filter.constrain filter q p) item := by
  induction n with
  | zero => exact ⟨item.get? "filter", rfl⟩
  | succ n ih =>
    obtain ⟨filter, h⟩ := ih
    refine ⟨(withFilter (Filter.constrain filter q p) item).get? "filter", ?_⟩
    show guardItem q p (Nat.repeat (guardItem q p) (n + 1) item) = _
    rw [h, guardItem, withFilter_withFilter]

namespace MapStyle

/-- How many layers that draw data have the id whose first item is this one. -/
def visits (s : MapStyle) (i : Nat) : Nat :=
  s.dataIds.countP fun id => s.items.findIdx? (hasId id) = some i

theorem getElem?_items_constrain (s : MapStyle) (q : Qualifier) (p : Period) (i : Nat) :
    (s.constrain q p).style.items[i]? =
      s.items[i]?.map (Nat.repeat (guardItem q p) (s.visits i)) := by
  rw [items_constrain, getElem?_guardItems_repeat]
  rfl

theorem visits_pos_iff {s : MapStyle} {i : Nat} : 0 < s.visits i ↔ s.Reached i := by
  rw [visits, List.countP_pos_iff, reached_iff]
  simp only [decide_eq_true_eq]

/-! ## Items without a source layer -/

/-- An item is the first one with its id, and a layer with this id that draws data is further
down. -/
def Shadows (s : MapStyle) (i : Nat) : Prop :=
  ∃ id, s.items.findIdx? (hasId id) = some i ∧
    ∃ j layer, i < j ∧ s.items[j]? = some layer ∧ DrawsData id layer

/-- An item without a source layer is reached only on account of a layer further down. -/
theorem reached_iff_shadows {s : MapStyle} {i : Nat} {item : Json} (h : s.items[i]? = some item)
    (hsource : ¬ ∃ source, item.get? "source-layer" = some (.str source)) :
    s.Reached i ↔ s.Shadows i := by
  refine exists_congr fun id => ?_
  constructor
  · rintro ⟨⟨layer, hlayer, hdraws⟩, hfirst⟩
    refine ⟨hfirst, ?_⟩
    obtain ⟨j, hj⟩ := List.mem_iff_getElem?.1 hlayer
    refine ⟨j, layer, ?_, hj, hdraws⟩
    -- Before `i` no item has the id, and at `i` there is no source layer.
    obtain ⟨hi, -, hbefore⟩ := List.findIdx?_eq_some_iff_getElem.1 hfirst
    rcases Nat.lt_trichotomy i j with hlt | heq | hgt
    · exact hlt
    · subst heq
      rw [h] at hj
      obtain rfl := Option.some.inj hj
      exact absurd hdraws.2 hsource
    · have hlast : s.items[j] = layer := by
        rw [List.getElem?_eq_getElem (Nat.lt_trans hgt hi)] at hj
        exact Option.some.inj hj
      exact absurd (decide_eq_true (hlast ▸ hdraws.1)) (hbefore j hgt)
  · rintro ⟨hfirst, j, layer, -, hj, hdraws⟩
    exact ⟨⟨layer, List.mem_of_getElem? hj, hdraws⟩, hfirst⟩

/-- An item without a source layer is kept as it is, unless a layer that draws data shares its id:
then its filter is guarded in the place of that layer's, and the rest of it is kept. -/
theorem kept_without_source (s : MapStyle) (q : Qualifier) (p : Period) {i : Nat} {item : Json}
    (h : s.items[i]? = some item)
    (hsource : ¬ ∃ source, item.get? "source-layer" = some (.str source)) :
    (¬ s.Shadows i → (s.constrain q p).style.items[i]? = some item) ∧
      (s.Shadows i → ∃ filter, (s.constrain q p).style.items[i]? =
        some (withFilter (Filter.constrain filter q p) item)) := by
  rw [getElem?_items_constrain, h, ← reached_iff_shadows h hsource, ← visits_pos_iff,
    Option.map_some]
  constructor
  · intro hzero
    rw [Nat.eq_zero_of_not_pos hzero]
    rfl
  · intro hpos
    obtain ⟨n, hn⟩ := Nat.exists_eq_add_one_of_ne_zero (Nat.ne_of_gt hpos)
    obtain ⟨filter, hfilter⟩ := repeat_guardItem_succ q p n item
    exact ⟨filter, by rw [hn, hfilter]⟩

def background (id : String) : Json := .obj [("id", .str id), ("type", .str "background")]

/-- A style in which a background shares its id with the layer that is drawn on top of it, and
another background has an id of its own. -/
def sharedWithBackground : MapStyle :=
  ⟨[("layers", .arr [background "water", background "land",
    .obj [("id", .str "water"), ("type", .str "fill"), ("source-layer", .str "water")]])]⟩

theorem kept_without_source_land :
    sharedWithBackground.items[1]? = some (background "land") ∧
      (¬ ∃ source, (background "land").get? "source-layer" = some (.str source)) ∧
      ¬ sharedWithBackground.Shadows 1 ∧
      (sharedWithBackground.constrain .standard (.ofYear 2013)).style.items[1]? =
        some (background "land") := by
  have hitem : sharedWithBackground.items[1]? = some (background "land") := rfl
  have hsource : ¬ ∃ source, (background "land").get? "source-layer" = some (.str source) := by
    rintro ⟨_, h⟩
    cases h
  have hown : ¬ sharedWithBackground.Shadows 1 := by
    rintro ⟨id, hfirst, j, layer, hj, hlayer, hid, -⟩
    obtain ⟨_, hland, _⟩ := List.findIdx?_eq_some_iff_getElem.1 hfirst
    have hlandId : some (Json.str "land") = some (.str id) := of_decide_eq_true hland
    obtain rfl := Json.str.inj (Option.some.inj hlandId)
    match j, hj with
    | 2, _ =>
      obtain rfl := Option.some.inj hlayer
      exact absurd hid (by decide)
    | j + 3, _ => cases hlayer
  exact ⟨hitem, hsource, hown,
    (kept_without_source sharedWithBackground .standard (.ofYear 2013) hitem hsource).1 hown⟩

/-- A background that shares its id does not keep the filter that it has: none. -/
theorem filter_of_shared_background :
    sharedWithBackground.items[0]? = some (background "water") ∧
      (background "water").get? "source-layer" = none ∧
      (sharedWithBackground.constrain .standard (.ofYear 2013)).style.items[0]? ≠
        some (background "water") := by
  refine ⟨rfl, rfl, ?_⟩
  intro h
  have hfilter := congrArg (fun item => (item.bind (Json.get? "filter")).isSome) h
  cases hfilter

end MapStyle

end Chronomap
