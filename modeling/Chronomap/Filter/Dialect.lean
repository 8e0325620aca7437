import Chronomap.Filter.Comparison

/-!
# The two dialects of filters

A filter of the legacy dialect names properties by bare keys, `["==", "class", "primary"]`; an
expression reads them, `["==", ["get", "class"], "primary"]`.  The dialects share operators.  A
filter counts as legacy only if something in it proves it to be; what fits both is an
expression.
-/

namespace Chronomap.Filter

inductive Dialect where
  | legacy
  | expression
deriving DecidableEq

def Dialect.name : Dialect → String
  | legacy => "legacy"
  | expression => "expression"

/-- Keys that only the legacy dialect has. -/
def isLegacyKey : Json → Bool
  | .str key => key == "$id" || key == "$type"
  | _ => false

/-- Whether a membership test lists its candidates in the legacy way: an expression has just
one argument after the key, an array or a text to search. -/
def listsCandidates : List Json → Bool
  | [] => false
  | [key] => isLegacyKey key
  | [key, value] =>
    isLegacyKey key ||
      match key, value with
      | _, .num _ => true
      | _, .bool _ => true
      | .str _, .str _ => true
      | _, _ => false
  | _ :: _ :: _ :: _ => true

/-- Whether a comparison compares a bare key with something that is no expression. -/
def comparesBareKey : List Json → Bool
  | .str _ :: .arr _ :: _ => false
  | .str _ :: _ => true
  | _ => false

mutual

/-- Whether a filter is provably written in the legacy dialect. -/
def isLegacy : Json → Bool
  | .arr (.str op :: arg :: args) =>
    if op = "!has" ∨ op = "!in" ∨ op = "none" then true
    else if op = "has" then isLegacyKey arg
    else if op = "in" then listsCandidates (arg :: args)
    else if op = "all" ∨ op = "any" then isLegacy arg || anyLegacy args
    else (Comparison.ofName? op).isSome && comparesBareKey (arg :: args)
  | _ => false

def anyLegacy : List Json → Bool
  | [] => false
  | x :: xs => isLegacy x || anyLegacy xs

end

/-- The dialect of a filter; no filter is an expression. -/
def Dialect.ofFilter : Option Json → Dialect
  | some f => if isLegacy f then legacy else expression
  | none => expression

end Chronomap.Filter
