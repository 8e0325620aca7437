import Chronomap.Proofs.Guard.Repetition
import Chronomap.Proofs.Style.Layers

/-!
# Setting a style to one period after the other

Layers with one id share one item, so one pass may guard an item several times, and a later pass
guards it again.  Neither can be seen: guarding an item again only sets it to the later period, and
no pass changes which items are guarded.  A style that has been set to several periods is the
style set to the last of them:

    ((s.constrain q p).style.constrain q p').style = (s.constrain q p').style
                                                                  (style_constrain_constrain)

A selection that names no period changes nothing, wherever it stands in a run.
-/

namespace Chronomap

/-! ## One item -/

def guardItem (q : Qualifier) (p : Period) (item : Json) : Json :=
  withFilter (Filter.constrain (item.get? "filter") q p) item

theorem guardItem_obj (q : Qualifier) (p : Period) (ms : Json.Members) :
    guardItem q p (.obj ms) =
      .obj (Json.Members.insert "filter"
        (Filter.constrain (Json.Members.get? "filter" ms) q p) ms) := rfl

theorem hasId_guardItem (q : Qualifier) (p : Period) (id : String) (item : Json) :
    MapStyle.hasId id (guardItem q p item) = MapStyle.hasId id item :=
  hasId_withFilter id _ item

theorem ofJson?_guardItem (q : Qualifier) (p : Period) (item : Json) :
    Layer.ofJson? (guardItem q p item) = Layer.ofJson? item :=
  ofJson?_withFilter _ item

/-- An item that is guarded again is set to the later period. -/
theorem guardItem_guardItem {q : Qualifier} {p p' : Period} (hp : p.Complete)
    (hp' : p'.Complete) (item : Json) :
    guardItem q p' (guardItem q p item) = guardItem q p' item := by
  cases item with
  | obj ms =>
    rw [guardItem_obj, guardItem_obj, guardItem_obj, Json.Members.get?_insert_self,
      Filter.constrain_constrain _ q hp hp', Json.Members.insert_insert]
  | null | bool _ | num _ | str _ | arr _ => rfl

/-- To guard an item several times is to guard it once. -/
theorem repeat_guardItem {q : Qualifier} {p : Period} (hp : p.Complete) (n : Nat) (item : Json) :
    Nat.repeat (guardItem q p) (n + 1) item = guardItem q p item := by
  induction n with
  | zero => rfl
  | succ n ih =>
    show guardItem q p (Nat.repeat (guardItem q p) (n + 1) item) = _
    rw [ih, guardItem_guardItem hp hp]

/-! ## The items of a style -/

/-- Guards the first item with each of some ids, in the order of the ids. -/
def guardItems (q : Qualifier) (p : Period) (ids : List String) (xs : List Json) : List Json :=
  ids.foldl (fun xs id => modifyFirst (MapStyle.hasId id) (guardItem q p) xs) xs

theorem repeat_succ_inner {α : Type} (f : α → α) (n : Nat) (x : α) :
    Nat.repeat f n (f x) = Nat.repeat f (n + 1) x := by
  induction n with
  | zero => rfl
  | succ n ih => exact congrArg f ih

section

variable {q : Qualifier} {p p' : Period} {ids : List String} {xs : List Json}

theorem guardItems_cons (id : String) :
    guardItems q p (id :: ids) xs =
      guardItems q p ids (modifyFirst (MapStyle.hasId id) (guardItem q p) xs) := rfl

/-- Guarding items cannot be seen by what does not look at filters. -/
theorem map_guardItems {β : Type} {g : Json → β} (h : ∀ item, g (guardItem q p item) = g item) :
    (guardItems q p ids xs).map g = xs.map g := by
  induction ids generalizing xs with
  | nil => rfl
  | cons id ids ih => rw [guardItems_cons, ih, map_modifyFirst h]

theorem findIdx?_eq_of_map_eq {α : Type} {here : α → Bool} {as bs : List α}
    (h : as.map here = bs.map here) : as.findIdx? here = bs.findIdx? here := by
  have hmap : ∀ xs : List α, xs.findIdx? here = (xs.map here).findIdx? id := by
    intro xs
    rw [List.findIdx?_map]
    rfl
  rw [hmap as, hmap bs, h]

theorem findIdx?_guardItems (id : String) :
    (guardItems q p ids xs).findIdx? (MapStyle.hasId id) = xs.findIdx? (MapStyle.hasId id) :=
  findIdx?_eq_of_map_eq (map_guardItems (hasId_guardItem q p id))

theorem findIdx?_modifyFirst_guardItem (id other : String) :
    (modifyFirst (MapStyle.hasId other) (guardItem q p) xs).findIdx? (MapStyle.hasId id) =
      xs.findIdx? (MapStyle.hasId id) :=
  findIdx?_eq_of_map_eq (map_modifyFirst (hasId_guardItem q p id) xs)

/-- An item is guarded once for each of the ids that it is the first one with. -/
theorem getElem?_guardItems_repeat (i : Nat) :
    (guardItems q p ids xs)[i]? =
      xs[i]?.map (Nat.repeat (guardItem q p)
        (ids.countP fun id => xs.findIdx? (MapStyle.hasId id) = some i)) := by
  induction ids generalizing xs with
  | nil =>
    show xs[i]? = xs[i]?.map fun item => item
    rw [Option.map_id']
  | cons id ids ih =>
    rw [guardItems_cons, ih, getElem?_modifyFirst, List.countP_cons]
    simp only [findIdx?_modifyFirst_guardItem]
    by_cases h : xs.findIdx? (MapStyle.hasId id) = some i
    · rw [if_pos h, if_pos (decide_eq_true h), Option.map_map]
      congr 1
      funext item
      exact repeat_succ_inner _ _ _
    · rw [if_neg h, if_neg (mt of_decide_eq_true h)]
      rfl

/-- An item is guarded if it is the first one with one of the ids, and once is enough. -/
theorem getElem?_guardItems (hp : p.Complete) (i : Nat) :
    (guardItems q p ids xs)[i]? =
      if ∃ id ∈ ids, xs.findIdx? (MapStyle.hasId id) = some i then xs[i]?.map (guardItem q p)
      else xs[i]? := by
  have hpos : 0 < ids.countP (fun id => xs.findIdx? (MapStyle.hasId id) = some i) ↔
      ∃ id ∈ ids, xs.findIdx? (MapStyle.hasId id) = some i := by
    rw [List.countP_pos_iff]
    simp only [decide_eq_true_eq]
  rw [getElem?_guardItems_repeat]
  split
  · next h =>
    obtain ⟨n, hn⟩ := Nat.exists_eq_add_one_of_ne_zero (Nat.ne_of_gt (hpos.2 h))
    rw [hn]
    congr 1
    funext item
    exact repeat_guardItem hp n item
  · next h =>
    rw [Nat.eq_zero_of_not_pos (mt hpos.1 h)]
    exact Option.map_id'

/-- Items that are guarded again are set to the later period. -/
theorem guardItems_guardItems (hp : p.Complete) (hp' : p'.Complete) :
    guardItems q p' ids (guardItems q p ids xs) = guardItems q p' ids xs := by
  apply List.ext_getElem?
  intro i
  rw [getElem?_guardItems hp', getElem?_guardItems hp', getElem?_guardItems hp]
  simp only [findIdx?_guardItems]
  split
  · rw [Option.map_map]
    congr 1
    funext item
    exact guardItem_guardItem hp hp' item
  · rfl

end

/-! ## One style -/

namespace MapStyle

def withItems (s : MapStyle) (xs : List Json) : MapStyle :=
  ⟨Json.Members.insert "layers" (.arr xs) s.members⟩

theorem items_withItems (s : MapStyle) (xs : List Json) : (s.withItems xs).items = xs := by
  rw [withItems, items, Json.Members.get?_insert_self]
  rfl

theorem withItems_withItems (s : MapStyle) (xs ys : List Json) :
    (s.withItems xs).withItems ys = s.withItems ys := by
  rw [withItems, withItems, withItems, Json.Members.insert_insert]

section

variable {s : MapStyle} {q : Qualifier} {p p' : Period}

theorem constrainLayer_withItems (xs : List Json) (layer : Layer) :
    constrainLayer q p (s.withItems xs) layer =
      s.withItems (modifyFirst (hasId layer.id) (guardItem q p) xs) := by
  have hfilter : (s.withItems xs).filter? layer.id =
      (xs.find? (hasId layer.id)).bind (Json.get? "filter") := by
    rw [filter?, items_withItems]
  rw [constrainLayer, hfilter, putFilter, withItems, Json.Members.get?_insert_self]
  simp only [Json.Members.insert_insert]
  rw [← withItems]
  congr 1
  apply modifyFirst_congr
  intro item hitem
  rw [hitem]
  rfl

theorem foldl_constrainLayer (layers : List Layer) (xs : List Json) :
    layers.foldl (constrainLayer q p) (s.withItems xs) =
      s.withItems (guardItems q p (layers.map (·.id)) xs) := by
  induction layers generalizing xs with
  | nil => rfl
  | cons layer layers ih =>
    rw [List.foldl_cons, constrainLayer_withItems, ih]
    rfl

def dataIds (s : MapStyle) : List String := s.dataLayers.map (·.id)

theorem items_of_arr {xs : List Json} (h : Json.Members.get? "layers" s.members = some (.arr xs)) :
    s.items = xs := by
  rw [items, h]
  rfl

theorem items_of_not_arr (h : ∀ xs, Json.Members.get? "layers" s.members ≠ some (.arr xs)) :
    s.items = [] := by
  rw [items]
  cases hv : Json.Members.get? "layers" s.members with
  | none => rfl
  | some v =>
    cases v with
    | arr xs => exact absurd hv (h xs)
    | null | bool _ | num _ | str _ | obj _ => rfl

theorem style_constrain {xs : List Json}
    (h : Json.Members.get? "layers" s.members = some (.arr xs)) :
    (s.constrain q p).style = s.withItems (guardItems q p s.dataIds xs) := by
  have hs : s.withItems xs = s := by
    rw [withItems, Json.Members.insert_of_get? h]
  calc (s.constrain q p).style
      = s.dataLayers.foldl (constrainLayer q p) (s.withItems xs) := by rw [hs]; rfl
    _ = s.withItems (guardItems q p s.dataIds xs) := foldl_constrainLayer s.dataLayers xs

theorem style_constrain_of_not_arr
    (h : ∀ xs, Json.Members.get? "layers" s.members ≠ some (.arr xs)) :
    (s.constrain q p).style = s := by
  rw [constrain, dataLayers, layers, items_of_not_arr h]
  rfl

theorem items_constrain (s : MapStyle) (q : Qualifier) (p : Period) :
    (s.constrain q p).style.items = guardItems q p s.dataIds s.items := by
  by_cases h : ∃ xs, Json.Members.get? "layers" s.members = some (.arr xs)
  · obtain ⟨xs, hxs⟩ := h
    rw [style_constrain hxs, items_withItems, items_of_arr hxs]
  · have hnone := not_exists.1 h
    rw [style_constrain_of_not_arr hnone, dataIds, dataLayers, layers, items_of_not_arr hnone]
    rfl

/-- Which layers draw data does not change. -/
theorem dataLayers_constrain (s : MapStyle) (q : Qualifier) (p : Period) :
    (s.constrain q p).style.dataLayers = s.dataLayers := by
  have hitems : (s.constrain q p).style.items.map Layer.ofJson? = s.items.map Layer.ofJson? := by
    rw [items_constrain, map_guardItems (ofJson?_guardItem q p)]
  rw [dataLayers, dataLayers, layers_eq_of_map_eq hitems]

/-- A style that is set to a second period is the style set to this period alone. -/
theorem style_constrain_constrain (s : MapStyle) (q : Qualifier) (hp : p.Complete)
    (hp' : p'.Complete) :
    ((s.constrain q p).style.constrain q p').style = (s.constrain q p').style := by
  by_cases h : ∃ xs, Json.Members.get? "layers" s.members = some (.arr xs)
  · obtain ⟨xs, hxs⟩ := h
    have hset : Json.Members.get? "layers" (s.constrain q p).style.members =
        some (.arr (guardItems q p s.dataIds xs)) := by
      rw [style_constrain hxs, withItems, Json.Members.get?_insert_self]
    rw [style_constrain hset, dataIds, dataLayers_constrain, ← dataIds, style_constrain hxs,
      withItems_withItems, guardItems_guardItems hp hp', style_constrain hxs]
  · rw [style_constrain_of_not_arr (not_exists.1 h)]

end

/-! ## What a period does to a style -/

/-- An item is the first one with the id of some layer that draws data. -/
def Reached (s : MapStyle) (i : Nat) : Prop :=
  ∃ id, (∃ item ∈ s.items, DrawsData id item) ∧ s.items.findIdx? (hasId id) = some i

/-- `s'` is the style `s` set to a period. -/
structure GuardedBy (q : Qualifier) (p : Period) (s s' : MapStyle) : Prop where
  /-- The items that are reached have their own filter guarded, in its place or as a new last
  member. -/
  reached : ∀ i, s.Reached i → ∃ ms ms', s.items[i]? = some (.obj ms) ∧
    s'.items[i]? = some (.obj ms') ∧
    Json.Members.Update "filter" (Filter.constrain (Json.Members.get? "filter" ms) q p) ms ms'
  /-- All other items are kept. -/
  other : ∀ i, ¬ s.Reached i → s'.items[i]? = s.items[i]?
  /-- Nothing but the items of `layers` is changed. -/
  document : match Json.Members.get? "layers" s.members with
    | some (.arr _) => Json.Members.Update "layers" (.arr s'.items) s.members s'.members
    | _ => s' = s

theorem reached_iff {s : MapStyle} {i : Nat} :
    s.Reached i ↔ ∃ id ∈ s.dataIds, s.items.findIdx? (hasId id) = some i := by
  unfold Reached dataIds
  simp only [← mem_dataLayers_iff, List.mem_map]

theorem guardedBy_constrain (s : MapStyle) (q : Qualifier) {p : Period} (hp : p.Complete) :
    GuardedBy q p s (s.constrain q p).style where
  reached := by
    intro i hreached
    obtain ⟨id, hdraws, hid⟩ := hreached
    obtain ⟨ms, hold⟩ := exists_members_of_findIdx? hid
    refine ⟨ms, _, hold, ?_, Json.Members.insert_update _ _ _⟩
    rw [items_constrain, getElem?_guardItems hp, if_pos (reached_iff.1 ⟨id, hdraws, hid⟩), hold]
    rfl
  other := by
    intro i h
    rw [items_constrain, getElem?_guardItems hp, if_neg (mt reached_iff.2 h)]
  document := by
    split
    · next xs hxs =>
      rw [items_constrain, items_of_arr hxs, style_constrain hxs]
      exact Json.Members.insert_update _ _ _
    · next hnone => exact style_constrain_of_not_arr hnone

/-! ## Runs -/

section

variable (settings : Settings)

/-- A style after a selection; a selection that fails leaves it as it is. -/
def after (s : MapStyle) (selection : Selection) : MapStyle :=
  match s.select settings selection with
  | .ok guarded => guarded.style
  | .error _ => s

/-- What the caller of a selection gets. -/
def answer (s : MapStyle) (selection : Selection) : Except InvalidDate Nat :=
  (s.select settings selection).map (·.count)

def afterAll (s : MapStyle) (selections : List Selection) : MapStyle :=
  selections.foldl (after settings) s

def answers : MapStyle → List Selection → List (Except InvalidDate Nat)
  | _, [] => []
  | s, selection :: rest =>
    s.answer settings selection :: answers (s.after settings selection) rest

/-- The answer to a selection by a style with some number of layers that draw data. -/
def reply (numbering : Numbering) (count : Nat) : Selection → Except InvalidDate Nat
  | .written text => if (Period.ofIsoDate? numbering text).isSome then .ok count else .error ⟨text⟩
  | .exact _ => .ok count

end

section

variable {settings : Settings} {s : MapStyle} {selection : Selection}

theorem after_of_some {p : Period} (h : Period.ofSelection? settings.numbering selection = some p) :
    s.after settings selection = (s.constrain settings.qualifier p).style := by
  simp only [after, select, h]

theorem after_of_none (h : Period.ofSelection? settings.numbering selection = none) :
    s.after settings selection = s := by
  simp only [after, select, h]

theorem dataLayers_after : (s.after settings selection).dataLayers = s.dataLayers := by
  cases h : Period.ofSelection? settings.numbering selection with
  | none => rw [after_of_none h]
  | some p => rw [after_of_some h, dataLayers_constrain]

theorem answer_eq : s.answer settings selection =
    reply settings.numbering s.dataLayers.length selection := by
  cases selection with
  | written text =>
    cases h : Period.ofIsoDate? settings.numbering text with
    | none => simp [answer, select, Period.ofSelection?, reply, h, Except.map, Selection.label]
    | some p => simp [answer, select, Period.ofSelection?, reply, h, Except.map, constrain]
  | exact t => rfl

theorem answers_eq (s : MapStyle) (selections : List Selection) :
    s.answers settings selections =
      selections.map (reply settings.numbering s.dataLayers.length) := by
  induction selections generalizing s with
  | nil => rfl
  | cons selection rest ih =>
    rw [answers, ih, answer_eq, dataLayers_after]
    rfl

/-- Of the selections that name a period the last one is seen. -/
theorem afterAll_eq (s : MapStyle) (selections : List Selection) :
    s.afterAll settings selections =
      match (selections.filterMap (Period.ofSelection? settings.numbering)).getLast? with
      | none => s
      | some p => (s.constrain settings.qualifier p).style := by
  induction selections generalizing s with
  | nil => rfl
  | cons selection rest ih =>
    have hcons : s.afterAll settings (selection :: rest) =
        (s.after settings selection).afterAll settings rest := rfl
    rw [hcons, ih, List.filterMap_cons]
    cases h : Period.ofSelection? settings.numbering selection with
    | none => simp only [after_of_none h]
    | some p =>
      simp only [after_of_some h, List.getLast?_cons]
      cases hlast : (rest.filterMap (Period.ofSelection? settings.numbering)).getLast? with
      | none => rfl
      | some p' =>
        -- A later period takes the place of this one.
        obtain ⟨selection', -, h'⟩ := List.mem_filterMap.1 (List.mem_of_getLast? hlast)
        exact style_constrain_constrain s _ (Period.complete_of_ofSelection? h)
          (Period.complete_of_ofSelection? h')

end

/-- A run of selections answers each one by itself, and sets the style to the last period. -/
theorem run_selections (settings : Settings) (s : MapStyle) (selections : List Selection) :
    s.answers settings selections =
        selections.map (reply settings.numbering (s.items.countP drawsData)) ∧
      (match (selections.filterMap (Period.ofSelection? settings.numbering)).getLast? with
        | none => s.afterAll settings selections = s
        | some p => GuardedBy settings.qualifier p s (s.afterAll settings selections)) ∧
      ∀ (k : Nat) (h : k < selections.length),
        Period.ofSelection? settings.numbering selections[k] = none →
          s.afterAll settings (selections.take (k + 1)) =
            s.afterAll settings (selections.take k) := by
  refine ⟨?_, ?_, ?_⟩
  · rw [answers_eq, length_dataLayers]
  · have hafter := @afterAll_eq settings s selections
    split
    · next hnone =>
      rw [hnone] at hafter
      exact hafter
    · next p hsome =>
      rw [hsome] at hafter
      obtain ⟨selection, -, hp⟩ := List.mem_filterMap.1 (List.mem_of_getLast? hsome)
      rw [hafter]
      exact guardedBy_constrain s _ (Period.complete_of_ofSelection? hp)
  · intro k h hnone
    rw [afterAll, List.take_succ_eq_append_getElem h, List.foldl_append]
    exact after_of_none hnone

/-- A style in which two layers share an id: the first one has no source layer, the second one
has no say in which item is guarded. -/
def sharedId : MapStyle :=
  ⟨[("version", .num (.int 8 (by decide))),
    ("layers", .arr [.null,
      .obj [("id", .str "roads"), ("filter", .arr [.str "has", .str "class"])],
      .obj [("id", .str "roads"), ("source-layer", .str "road")]])]⟩

theorem run_selections_sharedId :
    sharedId.answers {} [.written "1850", .written "soon", .written "1912"] =
        [.ok 1, .error ⟨"soon"⟩, .ok 1] ∧
      1 < [Selection.written "1850", .written "soon", .written "1912"].length ∧
      Period.ofSelection? .astronomical (.written "soon") = none ∧
      sharedId.afterAll {} [.written "1850", .written "soon"] =
        sharedId.afterAll {} [.written "1850"] := by
  have h := run_selections {} sharedId [.written "1850", .written "soon", .written "1912"]
  refine ⟨?_, by decide, rfl, h.2.2 1 (by decide) rfl⟩
  rw [h.1]
  rfl

end MapStyle

end Chronomap
