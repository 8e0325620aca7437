import Chronomap.Filter.Guard
import Chronomap.Settings
import Chronomap.Json.Parser

/-!
# Map styles

A map style is a JSON object.  Of it only the array `layers` is looked at, and of a layer only
its `id`, its `source-layer` and its `filter`; everything else is carried along in its place.  A
layer is found by its id, and of several layers with one id it is the first.
-/

namespace Chronomap

structure MapStyle where
  members : Json.Members
deriving DecidableEq

structure Layer where
  id : String
  /-- The layer of the vector tiles that is drawn; layers without one are never filtered. -/
  sourceLayer : Option String
deriving DecidableEq

/-- A date that names no period. -/
structure InvalidDate where
  text : String

def InvalidDate.message (e : InvalidDate) : String :=
  "invalid date: '" ++ e.text ++ "'\n  hint: use YYYY, YYYY-MM or YYYY-MM-DD, " ++
    "optionally with a leading '-' for BCE years"

/-- The layer that an item of `layers` is; only objects with a string as id are layers. -/
def Layer.ofJson? (item : Json) : Option Layer :=
  match item.get? "id" with
  | some (.str id) => some ⟨id, (item.get? "source-layer").bind Json.str?⟩
  | _ => none

def withFilter (filter : Json) : Json → Json
  | .obj ms => .obj (Json.Members.insert "filter" filter ms)
  | item => item

/-- Changes the first item that has a property, if there is one. -/
def modifyFirst {α : Type} (here : α → Bool) (change : α → α) : List α → List α
  | [] => []
  | x :: xs => if here x then change x :: xs else x :: modifyFirst here change xs

namespace MapStyle

/-! ## Access -/

def ofJson? : Json → Option MapStyle
  | .obj ms => some ⟨ms⟩
  | _ => none

def toJson (s : MapStyle) : Json := .obj s.members

/-- How deep the arrays and objects of a style may nest in its text. -/
def depthLimit : Nat := 127

def parse? (text : String) : Option MapStyle := (Json.parse? depthLimit text).bind ofJson?

/-- The items of `layers`, none if it is missing or no array. -/
def items (s : MapStyle) : List Json :=
  ((Json.Members.get? "layers" s.members).bind Json.items?).getD []

/-- The layers in drawing order. -/
def layers (s : MapStyle) : List Layer := s.items.filterMap Layer.ofJson?

def hasId (id : String) (item : Json) : Bool := decide (item.get? "id" = some (.str id))

/-- The filter of a layer, if there is the layer and it has one. -/
def filter? (s : MapStyle) (id : String) : Option Json :=
  (s.items.find? (hasId id)).bind (Json.get? "filter")

/-- Gives a layer a filter, if there is the layer. -/
def putFilter (s : MapStyle) (id : String) (filter : Json) : MapStyle :=
  match Json.Members.get? "layers" s.members with
  | some (.arr items) =>
    ⟨Json.Members.insert "layers" (.arr (modifyFirst (hasId id) (withFilter filter) items))
      s.members⟩
  | _ => s

/-! ## Guarding layers by a period -/

/-- The layers that draw data: those with a source layer. -/
def dataLayers (s : MapStyle) : List Layer := s.layers.filter (·.sourceLayer.isSome)

def constrainLayer (q : Qualifier) (p : Period) (s : MapStyle) (layer : Layer) : MapStyle :=
  s.putFilter layer.id (Filter.constrain (s.filter? layer.id) q p)

/-- A style whose filters have been guarded, and how many layers were visited for that. -/
structure Guarded where
  style : MapStyle
  count : Nat
deriving DecidableEq

/-- Guards the filters of all layers that draw data, in drawing order. -/
def constrain (s : MapStyle) (q : Qualifier) (p : Period) : Guarded where
  style := s.dataLayers.foldl (constrainLayer q p) s
  count := s.dataLayers.length

/-- Guards the filters of all layers that draw data by the period that a selection stands
for. -/
def select (s : MapStyle) (settings : Settings) (selection : Selection) :
    Except InvalidDate Guarded :=
  match Period.ofSelection? settings.numbering selection with
  | some p => .ok (s.constrain settings.qualifier p)
  | none => .error ⟨selection.label⟩

end MapStyle

end Chronomap
