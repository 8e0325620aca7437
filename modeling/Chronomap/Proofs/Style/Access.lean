import Chronomap.Proofs.Style.Runs

/-!
# Reading and replacing filters

A filter is read from the first item with an id and put into the same item, however malformed the
other items are:

    (s.putFilter id v).items = modifyFirst (hasId id) (withFilter v) s.items    (items_putFilter)

So what is read is what was put last, no other id sees the difference, and the list of layers
stays the same (`filter_laws`).
-/

namespace Chronomap

/-! ## Items -/

/-- An item has one id at most. -/
theorem hasId_eq_false {id other : String} {item : Json} (h : MapStyle.hasId id item = true)
    (ne : other ≠ id) : MapStyle.hasId other item = false := by
  have hid : item.get? "id" = some (.str id) := of_decide_eq_true h
  rw [MapStyle.hasId, hid]
  simp [Ne.symm ne]

theorem withFilter_of_get? {v item : Json} (h : item.get? "filter" = some v) :
    withFilter v item = item := by
  obtain ⟨ms, rfl⟩ := exists_members_of_get? h
  exact congrArg Json.obj (Json.Members.insert_of_get? h)

namespace MapStyle

/-! ## One filter -/

section

variable {s : MapStyle} {id : String} {v : Json}

theorem putFilter_of_arr {xs : List Json}
    (h : Json.Members.get? "layers" s.members = some (.arr xs)) :
    s.putFilter id v = s.withItems (modifyFirst (hasId id) (withFilter v) xs) := by
  rw [putFilter, h]
  rfl

theorem putFilter_of_not_arr
    (h : ∀ xs, Json.Members.get? "layers" s.members ≠ some (.arr xs)) : s.putFilter id v = s := by
  rw [putFilter]
  split
  · next xs hxs => exact absurd hxs (h xs)
  · rfl

theorem items_putFilter (s : MapStyle) (id : String) (v : Json) :
    (s.putFilter id v).items = modifyFirst (hasId id) (withFilter v) s.items := by
  by_cases h : ∃ xs, Json.Members.get? "layers" s.members = some (.arr xs)
  · obtain ⟨xs, hxs⟩ := h
    rw [putFilter_of_arr hxs, items_withItems, items_of_arr hxs]
  · have hnone := not_exists.1 h
    rw [putFilter_of_not_arr hnone, items_of_not_arr hnone]
    rfl

/-- Where no item is changed, nothing is. -/
theorem putFilter_eq_self (h : modifyFirst (hasId id) (withFilter v) s.items = s.items) :
    s.putFilter id v = s := by
  by_cases hlayers : ∃ xs, Json.Members.get? "layers" s.members = some (.arr xs)
  · obtain ⟨xs, hxs⟩ := hlayers
    rw [items_of_arr hxs] at h
    rw [putFilter_of_arr hxs, h, withItems, Json.Members.insert_of_get? hxs]
  · exact putFilter_of_not_arr (not_exists.1 hlayers)

theorem layers_putFilter (s : MapStyle) (id : String) (v : Json) :
    (s.putFilter id v).layers = s.layers := by
  apply layers_eq_of_map_eq
  rw [items_putFilter, map_modifyFirst (ofJson?_withFilter v)]

theorem filter?_putFilter_of_ne {other : String} (ne : other ≠ id) :
    (s.putFilter id v).filter? other = s.filter? other := by
  rw [filter?, filter?, items_putFilter,
    find?_modifyFirst_of_ne (hasId_withFilter other v) fun _ h => hasId_eq_false h ne]

theorem putFilter_putFilter (s : MapStyle) (id : String) (v w : Json) :
    (s.putFilter id v).putFilter id w = s.putFilter id w := by
  by_cases h : ∃ xs, Json.Members.get? "layers" s.members = some (.arr xs)
  · obtain ⟨xs, hxs⟩ := h
    have hput : Json.Members.get? "layers" (s.putFilter id v).members =
        some (.arr (modifyFirst (hasId id) (withFilter v) xs)) := by
      rw [putFilter_of_arr hxs, withItems, Json.Members.get?_insert_self]
    rw [putFilter_of_arr hput, modifyFirst_modifyFirst (hasId_withFilter id v),
      putFilter_of_arr hxs, withItems_withItems, putFilter_of_arr hxs]
    simp only [withFilter_withFilter]
  · rw [putFilter_of_not_arr (s := s) (not_exists.1 h)]

theorem putFilter_filter? (h : s.filter? id = some v) : s.putFilter id v = s := by
  apply putFilter_eq_self
  apply modifyFirst_eq_self
  intro item hitem
  rw [filter?, hitem] at h
  exact withFilter_of_get? h

end

/-! ## All access to filters -/

def HasLayer (s : MapStyle) (id : String) : Prop :=
  ∃ ms, Json.obj ms ∈ s.items ∧ Json.Members.get? "id" ms = some (.str id)

/-- `s'` is the style `s` in which the first layer with an id has been given a filter. -/
structure FilterPut (id : String) (filter : Json) (s s' : MapStyle) : Prop where
  /-- The layer has the filter in the place of the one it had, or as a new last member. -/
  layer : ∀ i, s.items.findIdx? (hasId id) = some i → ∃ ms ms', s.items[i]? = some (.obj ms) ∧
    s'.items[i]? = some (.obj ms') ∧ Json.Members.Update "filter" filter ms ms'
  /-- All other items are kept. -/
  other : ∀ i, s.items.findIdx? (hasId id) ≠ some i → s'.items[i]? = s.items[i]?
  /-- Nothing but the items of `layers` is changed. -/
  document : match Json.Members.get? "layers" s.members with
    | some (.arr _) => Json.Members.Update "layers" (.arr s'.items) s.members s'.members
    | _ => s' = s

section

variable {s : MapStyle} {id : String}

theorem find?_of_hasLayer (h : s.HasLayer id) : ∃ ms, s.items.find? (hasId id) = some (.obj ms) := by
  obtain ⟨ms, hms, hid⟩ := h
  have hhas : hasId id (.obj ms) = true := decide_eq_true hid
  obtain ⟨item, hitem⟩ := Option.isSome_iff_exists.1 (List.find?_isSome.2 ⟨_, hms, hhas⟩)
  have hfound : hasId id item = true := List.find?_some hitem
  obtain ⟨ms', rfl⟩ := exists_members_of_get? (of_decide_eq_true hfound)
  exact ⟨ms', hitem⟩

theorem find?_of_not_hasLayer (h : ¬ s.HasLayer id) : s.items.find? (hasId id) = none := by
  rw [List.find?_eq_none]
  intro item hitem hhas
  have hid : item.get? "id" = some (.str id) := of_decide_eq_true hhas
  obtain ⟨ms, rfl⟩ := exists_members_of_get? hid
  exact h ⟨ms, hitem, hid⟩

theorem filter?_putFilter_self (h : s.HasLayer id) (v : Json) :
    (s.putFilter id v).filter? id = some v := by
  obtain ⟨ms, hms⟩ := find?_of_hasLayer h
  rw [filter?, items_putFilter, find?_modifyFirst_self (hasId_withFilter id v), hms]
  exact Json.Members.get?_insert_self "filter" v ms

theorem putFilter_of_not_hasLayer (h : ¬ s.HasLayer id) (v : Json) : s.putFilter id v = s := by
  apply putFilter_eq_self
  apply modifyFirst_eq_self
  intro item hitem
  rw [find?_of_not_hasLayer h] at hitem
  cases hitem

theorem filterPut_putFilter (s : MapStyle) (id : String) (v : Json) :
    FilterPut id v s (s.putFilter id v) where
  layer := by
    intro i hfirst
    obtain ⟨ms, hold⟩ := exists_members_of_findIdx? hfirst
    refine ⟨ms, _, hold, ?_, Json.Members.insert_update _ _ _⟩
    rw [items_putFilter, getElem?_modifyFirst, if_pos hfirst, hold]
    rfl
  other := by
    intro i hother
    rw [items_putFilter, getElem?_modifyFirst, if_neg hother]
  document := by
    split
    · next xs hxs =>
      rw [items_putFilter, items_of_arr hxs, putFilter_of_arr hxs]
      exact Json.Members.insert_update _ _ _
    · next hnone => exact putFilter_of_not_arr hnone

end

/-- What is read of a style after a filter was put, and what else has changed. -/
theorem filter_laws (s : MapStyle) (id : String) (v : Json) :
    (s.HasLayer id → (s.putFilter id v).filter? id = some v) ∧
      (¬ s.HasLayer id → (s.putFilter id v).filter? id = none ∧ s.putFilter id v = s) ∧
      (∀ other, other ≠ id → (s.putFilter id v).filter? other = s.filter? other) ∧
      (s.putFilter id v).layers = s.layers ∧
      (∀ w, (s.putFilter id v).putFilter id w = s.putFilter id w) ∧
      (∀ w, s.filter? id = some w → s.putFilter id w = s) ∧
      FilterPut id v s (s.putFilter id v) := by
  refine ⟨fun h => filter?_putFilter_self h v, ?_, fun _ => filter?_putFilter_of_ne,
    layers_putFilter s id v, putFilter_putFilter s id v, fun _ => putFilter_filter?,
    filterPut_putFilter s id v⟩
  intro h
  rw [putFilter_of_not_hasLayer h, filter?, find?_of_not_hasLayer h]
  exact ⟨rfl, rfl⟩

theorem filter_laws_sharedId :
    sharedId.HasLayer "roads" ∧ ¬ sharedId.HasLayer "water" ∧ "water" ≠ "roads" ∧
      (sharedId.putFilter "roads" .null).filter? "roads" = some .null ∧
      (sharedId.putFilter "roads" .null).filter? "water" = none ∧
      sharedId.putFilter "water" .null = sharedId ∧
      sharedId.putFilter "roads" (.arr [.str "has", .str "class"]) = sharedId := by
  obtain ⟨hself, -, hother, -, -, hsame, -⟩ := filter_laws sharedId "roads" .null
  obtain ⟨-, hmissing, -⟩ := filter_laws sharedId "water" .null
  have hroads : sharedId.HasLayer "roads" := ⟨_, .tail _ (.head _), rfl⟩
  have hwater : ¬ sharedId.HasLayer "water" := by
    intro h
    obtain ⟨ms, hms⟩ := find?_of_hasLayer h
    cases hms
  have hne : "water" ≠ "roads" := by decide
  exact ⟨hroads, hwater, hne, hself hroads, hother "water" hne, (hmissing hwater).2,
    hsame _ rfl⟩

end MapStyle

end Chronomap
