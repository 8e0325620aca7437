import Chronomap.Command.Run
import Chronomap.Proofs.Guard.Depth
import Chronomap.Proofs.Json.RoundTrip
import Chronomap.Proofs.Style.Runs

/-!
# Dating a style that is dated

A date puts the filters of a style two levels deeper at most:

    s.toJson within depth + 7 → (s.constrain q p).style.toJson within depth + 9
                                                                  (MapStyle.within_constrain)

The text of a dated style is read back unless the style now nests too deep.  If it is, a second
date takes the place of the first one (`Command.dated_dated`).
-/

namespace Chronomap

section

variable {q : Qualifier} {p : Period} {depth : Nat}

theorem within_guardItem {item : Json} (h : item.Within (depth + 5)) :
    (guardItem q p item).Within (depth + 7) := by
  cases item with
  | obj ms =>
    have hfilter : ∀ v ∈ Filter.present (Json.Members.get? "filter" ms), v.Within (depth + 4) := by
      intro v hv
      rcases Filter.present_eq (Json.Members.get? "filter" ms) with heq | ⟨hnone, -⟩
      · exact h.of_get? (heq ▸ hv)
      · rw [hnone] at hv
        cases hv
    rw [guardItem_obj]
    exact (h.mono (by omega)).obj_insert (Filter.within_constrain hfilter q p) "filter"
  | null | bool _ | num _ | str _ | arr _ => exact h.mono (by omega)

theorem within_guardItems {ids : List String} {xs : List Json} (hp : p.Complete)
    (h : ∀ item ∈ xs, item.Within (depth + 5)) :
    ∀ item ∈ guardItems q p ids xs, item.Within (depth + 7) := by
  intro item hitem
  obtain ⟨i, hi⟩ := List.mem_iff_getElem?.1 hitem
  rw [getElem?_guardItems hp] at hi
  split at hi
  · obtain ⟨old, hold, rfl⟩ := Option.map_eq_some_iff.1 hi
    exact within_guardItem (h old (List.mem_of_getElem? hold))
  · exact (h item (List.mem_of_getElem? hi)).mono (by omega)

end

/-! ## The text of a style -/

namespace MapStyle

section

variable {s : MapStyle} {q : Qualifier} {p : Period}

/-- A date puts filters at most two levels deeper, and adds no key twice. -/
theorem within_constrain {depth : Nat} (h : s.toJson.Within (depth + 7)) (q : Qualifier)
    (hp : p.Complete) : (s.constrain q p).style.toJson.Within (depth + 9) := by
  by_cases hlayers : ∃ xs, Json.Members.get? "layers" s.members = some (.arr xs)
  · obtain ⟨xs, hxs⟩ := hlayers
    have hold : ∀ item ∈ xs, item.Within (depth + 5) := Json.within_arr_iff.1 (h.of_get? hxs)
    have hnew : (Json.arr (guardItems q p s.dataIds xs)).Within (depth + 8) :=
      Json.within_arr_iff.2 (within_guardItems hp hold)
    rw [style_constrain hxs]
    exact (h.mono (by omega)).obj_insert hnew "layers"
  · rw [style_constrain_of_not_arr (not_exists.1 hlayers)]
    exact h.mono (by omega)

theorem toJson_eq_of_ofJson? {v : Json} (h : ofJson? v = some s) : s.toJson = v := by
  cases v with
  | obj ms =>
    obtain rfl := Option.some.inj h
    rfl
  | null | bool _ | num _ | str _ | arr _ => cases h

theorem within_of_parse? {text : String} (h : parse? text = some s) :
    s.toJson.Within depthLimit := by
  obtain ⟨v, hread, hv⟩ := Option.bind_eq_some_iff.1 h
  rw [toJson_eq_of_ofJson? hv]
  exact Json.parse?_sound hread

/-- A style is read from its own text exactly if it nests no deeper than a text may. -/
theorem parse?_pretty (h : s.toJson.WellKeyed) :
    parse? s.toJson.pretty = if s.toJson.nesting ≤ depthLimit then some s else none := by
  rw [parse?, Json.parse?_pretty h]
  split <;> rfl

end

end MapStyle

/-! ## The command -/

namespace Command

section

variable {settings : Settings} {date style : String} {s : MapStyle} {p : Period}

theorem dated_of_parse? (hs : MapStyle.parse? style = some s)
    (hp : Period.ofIsoDate? settings.numbering date = some p) :
    dated settings date style = .ok (s.constrain settings.qualifier p).style.toJson.pretty := by
  simp only [dated, hs, MapStyle.select, Period.ofSelection?, hp]

theorem dated_of_not_parse? (h : MapStyle.parse? style = none) :
    dated settings date style = .error .notStyle := by
  simp only [dated, h]

theorem exists_of_dated {out : String} (h : dated settings date style = .ok out) :
    ∃ s p, MapStyle.parse? style = some s ∧
      Period.ofIsoDate? settings.numbering date = some p ∧
      (s.constrain settings.qualifier p).style.toJson.pretty = out := by
  cases hs : MapStyle.parse? style with
  | none =>
    rw [dated_of_not_parse? hs] at h
    cases h
  | some s =>
    cases hp : Period.ofIsoDate? settings.numbering date with
    | none =>
      simp only [dated, hs, MapStyle.select, Period.ofSelection?, hp] at h
      cases h
    | some p =>
      rw [dated_of_parse? hs hp] at h
      exact ⟨s, p, rfl, rfl, Except.ok.inj h⟩

/-- A style that has been read, dated, and written. -/
theorem dated_pretty (h : s.toJson.WellKeyed)
    (hp : Period.ofIsoDate? settings.numbering date = some p) :
    dated settings date s.toJson.pretty =
      if s.toJson.nesting ≤ MapStyle.depthLimit then
        .ok (s.constrain settings.qualifier p).style.toJson.pretty
      else .error .notStyle := by
  have hread := MapStyle.parse?_pretty h
  split
  · next hfits => exact dated_of_parse? (hread.trans (if_pos hfits)) hp
  · next hdeep => exact dated_of_not_parse? (hread.trans (if_neg hdeep))

end

/-! ## Deep filters -/

/-- A filter that is negated over and over. -/
def negations : Nat → Json
  | 0 => Filter.call "has" [.str "class"]
  | n + 1 => Filter.call "!" [negations n]

/-- A style with one layer, which has a filter. -/
def roads (filter : Json) : MapStyle :=
  ⟨[("layers", .arr [.obj [("id", .str "roads"), ("source-layer", .str "roads"),
    ("filter", filter)]])]⟩

theorem within_negations_iff {n depth : Nat} : (negations n).Within depth ↔ n < depth := by
  have hzero : ∀ op args, ¬ (Filter.call op args).Within 0 := by
    intro op args h
    exact absurd h.nesting_le (Nat.not_succ_le_zero _)
  induction n generalizing depth with
  | zero =>
    cases depth with
    | zero => exact iff_of_false (hzero _ _) (Nat.lt_irrefl 0)
    | succ depth => simp [negations, Filter.within_call_iff, Json.within_str]
  | succ n ih =>
    cases depth with
    | zero => exact iff_of_false (hzero _ _) (Nat.not_lt_zero _)
    | succ depth => simp [negations, Filter.within_call_iff, ih]

theorem within_roads_iff {filter : Json} {depth : Nat} :
    (roads filter).toJson.Within (depth + 3) ↔ filter.Within depth := by
  simp [roads, MapStyle.toJson, Json.within_obj_iff, Json.within_arr_iff, Json.within_str]

theorem constrain_roads (filter : Json) (q : Qualifier) (p : Period) :
    ((roads filter).constrain q p).style = roads (Filter.constrain (some filter) q p) := rfl

/-- Negations get a guard around them, two levels deeper. -/
theorem within_constrain_negations_iff {n depth : Nat} {q : Qualifier} {p : Period} :
    (Filter.constrain (some (negations n)) q p).Within (depth + 6) ↔ n < depth + 4 := by
  have hexpression : Filter.constrain (some (negations n)) q p =
      Filter.Variable.constrain (some (negations n)) q p := by
    cases n <;> rfl
  have hguard : ¬ Filter.Variable.IsGuard q (some (negations n)) := by
    rintro ⟨b, hb, -⟩
    cases n <;> simp [negations, Filter.Variable.Binder.toFilter, Filter.call] at hb
  have hpresent : Filter.present (some (negations n)) = some (negations n) := by
    cases n <;> exact Filter.present_call _ _
  rw [hexpression, Filter.Variable.within_constrain_iff hguard, hpresent]
  simp [within_negations_iff]

/-- The three levels of the style are around its filter. -/
theorem parse?_roads {n : Nat} (h : n + 3 < MapStyle.depthLimit) :
    MapStyle.parse? (roads (negations n)).toJson.pretty = some (roads (negations n)) := by
  have hwithin : (roads (negations n)).toJson.Within MapStyle.depthLimit :=
    within_roads_iff.2 (within_negations_iff.2 (Nat.lt_sub_of_add_lt h))
  rw [MapStyle.parse?_pretty hwithin.wellKeyed, if_pos hwithin.nesting_le]

/-- With a guard around 122 negations or more the style is too deep to be read. -/
theorem dated_constrain_roads {settings : Settings} {date : String} {n : Nat} {q : Qualifier}
    {p p' : Period} (hdeep : 122 ≤ n) (hp' : Period.ofIsoDate? settings.numbering date = some p') :
    dated settings date ((roads (negations n)).constrain q p).style.toJson.pretty =
      .error .notStyle := by
  rw [constrain_roads]
  have hwithin : (roads (Filter.constrain (some (negations n)) q p)).toJson.Within (n + 6 + 3) :=
    within_roads_iff.2 (within_constrain_negations_iff.2 (by omega))
  have hnesting : ¬ (roads (Filter.constrain (some (negations n)) q p)).toJson.nesting ≤
      MapStyle.depthLimit := by
    intro hle
    have hfilter : (Filter.constrain (some (negations n)) q p).Within (118 + 6) :=
      within_roads_iff.1 ⟨hwithin.wellKeyed, hle⟩
    exact absurd (within_constrain_negations_iff.1 hfilter) (Nat.not_lt_of_le hdeep)
  rw [dated_pretty hwithin.wellKeyed hp', if_neg hnesting]

/-! ## One date after the other -/

/-- Of two dates the second one is seen, as if the first one had never been, provided that the
dated style can be read again.  It cannot if the first date has made it nest too deep, and no
style that is two levels short of the limit gets that deep. -/
theorem dated_dated {settings : Settings} {first second style once : String}
    (h : dated settings first style = .ok once)
    (hsecond : (Period.ofIsoDate? settings.numbering second).isSome) :
    ∃ s p direct, MapStyle.parse? style = some s ∧
      Period.ofIsoDate? settings.numbering first = some p ∧
      (s.constrain settings.qualifier p).style.toJson.pretty = once ∧
      dated settings second style = .ok direct ∧
      dated settings second once =
        (if (s.constrain settings.qualifier p).style.toJson.nesting ≤ MapStyle.depthLimit then
          .ok direct else .error .notStyle) ∧
      (s.toJson.nesting + 2 ≤ MapStyle.depthLimit →
        (s.constrain settings.qualifier p).style.toJson.nesting ≤ MapStyle.depthLimit) := by
  obtain ⟨s, p, hs, hp, rfl⟩ := exists_of_dated h
  obtain ⟨p', hp'⟩ := Option.isSome_iff_exists.1 hsecond
  have hcomplete := Period.complete_of_ofIsoDate? hp
  have hread := MapStyle.within_of_parse? hs
  -- What was read nests at most 127 deep, and a guard adds two levels at most.
  have honce : (s.constrain settings.qualifier p).style.toJson.Within (120 + 9) :=
    MapStyle.within_constrain hread settings.qualifier hcomplete
  refine ⟨s, p, _, hs, hp, rfl, dated_of_parse? hs hp', ?_, ?_⟩
  · rw [dated_pretty honce.wellKeyed hp',
      MapStyle.style_constrain_constrain s _ hcomplete (Period.complete_of_ofIsoDate? hp')]
  · intro hroom
    have hshallow : s.toJson.Within (118 + 7) := ⟨hread.wellKeyed, Nat.le_of_add_le_add_right hroom⟩
    exact (MapStyle.within_constrain hshallow settings.qualifier hcomplete).nesting_le

theorem dated_dated_roads :
    ∃ once direct, dated {} "1912" (roads (negations 0)).toJson.pretty = .ok once ∧
      (Period.ofIsoDate? .astronomical "2013").isSome ∧
      dated {} "2013" (roads (negations 0)).toJson.pretty = .ok direct ∧
      dated {} "2013" once = .ok direct := by
  have hread := parse?_roads (by decide : 0 + 3 < MapStyle.depthLimit)
  have hfirst : (Period.ofIsoDate? .astronomical "1912").isSome := rfl
  have hsecond : (Period.ofIsoDate? .astronomical "2013").isSome := rfl
  obtain ⟨p, hp⟩ := Option.isSome_iff_exists.1 hfirst
  have honce : dated {} "1912" (roads (negations 0)).toJson.pretty =
      .ok ((roads (negations 0)).constrain .standard p).style.toJson.pretty :=
    dated_of_parse? hread hp
  obtain ⟨s, _, direct, hs, -, -, hdirect, htwice, hroom⟩ := dated_dated honce hsecond
  obtain rfl := Option.some.inj (hread.symm.trans hs)
  refine ⟨_, direct, honce, hsecond, hdirect, ?_⟩
  rw [htwice, if_pos (hroom (by decide))]

/-- A style that nests 126 levels deep can be given a date, but no other date after that. -/
theorem not_dated_dated_negations :
    ∃ once direct, dated {} "1912" (roads (negations 122)).toJson.pretty = .ok once ∧
      dated {} "2013" (roads (negations 122)).toJson.pretty = .ok direct ∧
      dated {} "2013" once = .error .notStyle := by
  have hread := parse?_roads (by decide : 122 + 3 < MapStyle.depthLimit)
  have hfirst : (Period.ofIsoDate? .astronomical "1912").isSome := rfl
  have hsecond : (Period.ofIsoDate? .astronomical "2013").isSome := rfl
  obtain ⟨p, hp⟩ := Option.isSome_iff_exists.1 hfirst
  obtain ⟨p', hp'⟩ := Option.isSome_iff_exists.1 hsecond
  exact ⟨_, _, dated_of_parse? hread hp, dated_of_parse? hread hp',
    dated_constrain_roads (Nat.le_refl 122) hp'⟩

end Command

end Chronomap
