import Chronomap.Json.Basic

/-!
# Comparisons

The six comparisons of filters.  Values of different types are never equal, and only numbers
and strings are ordered: numbers as doubles, strings by code point.  Arrays and objects are
equal to nothing, not even to themselves.
-/

namespace Chronomap.Filter

inductive Comparison where
  | eq
  | ne
  | lt
  | le
  | gt
  | ge
deriving DecidableEq

namespace Comparison

def name : Comparison → String
  | eq => "=="
  | ne => "!="
  | lt => "<"
  | le => "<="
  | gt => ">"
  | ge => ">="

def ofName? : String → Option Comparison
  | "==" => some eq
  | "!=" => some ne
  | "<" => some lt
  | "<=" => some le
  | ">" => some gt
  | ">=" => some ge
  | _ => none

def floatOrder? (x y : Float) : Option Ordering :=
  if x < y then some .lt else if y < x then some .gt else if x == y then some .eq else none

/-- How two values compare that are ordered. -/
def order? : Json → Json → Option Ordering
  | .num a, .num b => floatOrder? a.toFloat b.toFloat
  | .str a, .str b => some (if a < b then .lt else if a = b then .eq else .gt)
  | _, _ => none

/-- Whether two values are equal: ordered ones when neither comes first, and otherwise truth
values and `null` when they are the same. -/
def equal : Json → Json → Bool
  | .bool a, .bool b => a == b
  | .null, .null => true
  | a, b => order? a b == some .eq

def holds (c : Comparison) (a b : Json) : Bool :=
  match c with
  | eq => equal a b
  | ne => !equal a b
  | lt => order? a b == some .lt
  | le => order? a b == some .lt || order? a b == some .eq
  | gt => order? a b == some .gt
  | ge => order? a b == some .gt || order? a b == some .eq

end Comparison

end Chronomap.Filter
