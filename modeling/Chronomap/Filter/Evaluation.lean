import Chronomap.Filter.Dialect
import Chronomap.Json.Printer

/-!
# Whether a feature passes a filter

A legacy filter tests keys of a feature against literals.  A missing key fails every test but
`!=`, `!has` and `!in`.

An expression has a JSON value.  Arguments that are missing are `null`.  `let` binds names to
values for its body, and `var` reads the innermost binding of a name.
-/

namespace Chronomap

/-! ## Features -/

structure Feature where
  id : Option Json
  /-- `Point`, `LineString` or `Polygon`. -/
  geometryType : Option String
  properties : Json.Members

namespace Feature

def property? (f : Feature) (key : String) : Option Json := Json.Members.get? key f.properties

/-- The value of a key: `$type` is the geometry type, `$id` the id, and every other key a
property. -/
def key? (f : Feature) (key : String) : Option Json :=
  if key = "$type" then f.geometryType.map .str
  else if key = "$id" then f.id
  else f.property? key

end Feature

namespace Filter

/-! ## Failures -/

/-- A reason why a filter has no value. -/
inductive Failure where
  /-- The operator is not one that can be evaluated. -/
  | unknownOperator (name : String)
  /-- The value is no call of an operator, or a `let` whose bindings are not pairs of a name
  and a value. -/
  | malformed (node : Json)
  /-- No enclosing `let` binds the variable. -/
  | unbound (name : String)

def Failure.message : Failure → String
  | unknownOperator name => "unsupported filter operator: '" ++ name ++ "'"
  | malformed node => "unsupported filter operator: '" ++ node.compact ++ "'"
  | unbound name => "unbound variable in filter: '" ++ name ++ "'"

/-! ## Legacy filters -/

namespace Legacy

inductive Operator where
  | all
  | any
  | none
  | has
  | lacks
  | among
  | notAmong
  | compare (c : Comparison)
deriving DecidableEq

def Operator.ofName? (name : String) : Option Operator :=
  match name with
  | "all" => some all
  | "any" => some any
  | "none" => some none
  | "has" => some has
  | "!has" => some lacks
  | "in" => some among
  | "!in" => some notAmong
  | name => (Comparison.ofName? name).map compare

theorem Operator.ofName?_name (c : Comparison) : ofName? c.name = some (.compare c) := by
  cases c <;> rfl

/-- The value of the key that the arguments start with; only a string is a key. -/
def lookup? (f : Feature) : List Json → Option Json
  | .str key :: _ => f.key? key
  | _ => Option.none

/-- Whether the key's value equals one of the arguments after the key. -/
def isAmong (f : Feature) (args : List Json) : Bool :=
  match lookup? f args with
  | some actual => (args.drop 1).any fun candidate => Comparison.eq.holds actual candidate
  | Option.none => false

/-- Whether the key's value compares to the second argument, which is `null` if missing. -/
def compares (f : Feature) (c : Comparison) (args : List Json) : Bool :=
  match lookup? f args with
  | some actual => c.holds actual (args.getD 1 .null)
  | Option.none => c == .ne

mutual

def passes (f : Feature) : Json → Except Failure Bool
  | .arr (.str op :: args) =>
    match Operator.ofName? op with
    | some .all => allPass f args
    | some .any => anyPass f args
    | some .none => (anyPass f args).map (!·)
    | some .has => .ok (lookup? f args).isSome
    | some .lacks => .ok (lookup? f args).isNone
    | some .among => .ok (isAmong f args)
    | some .notAmong => .ok (!isAmong f args)
    | some (.compare c) => .ok (compares f c args)
    | Option.none => .error (.unknownOperator op)
  | node => .error (.malformed node)

/-- Whether a feature passes every filter; filters after the first one failed are not looked
at. -/
def allPass (f : Feature) : List Json → Except Failure Bool
  | [] => .ok true
  | x :: xs => do if ← passes f x then allPass f xs else .ok false

/-- Whether a feature passes some filter; filters after the first one passed are not looked
at. -/
def anyPass (f : Feature) : List Json → Except Failure Bool
  | [] => .ok false
  | x :: xs => do if ← passes f x then .ok true else anyPass f xs

end

end Legacy

/-! ## Expressions -/

namespace Expression

/-! ### Operators -/

inductive Operator where
  | literal
  | get
  | has
  | id
  | geometryType
  | not
  | all
  | any
  | compare (c : Comparison)
  | contained
  | coalesce
  | choose
  | select
  | toBoolean
  | bind
  | var
deriving DecidableEq

def Operator.ofName? (name : String) : Option Operator :=
  match name with
  | "literal" => some literal
  | "get" => some get
  | "has" => some has
  | "id" => some id
  | "geometry-type" => some geometryType
  | "!" => some not
  | "all" => some all
  | "any" => some any
  | "in" => some contained
  | "coalesce" => some coalesce
  | "case" => some choose
  | "match" => some select
  | "to-boolean" => some toBoolean
  | "let" => some bind
  | "var" => some var
  | name => (Comparison.ofName? name).map compare

theorem Operator.ofName?_name (c : Comparison) : ofName? c.name = some (.compare c) := by
  cases c <;> rfl

/-- Whether a value, taken as a condition, is satisfied: only `true` itself is. -/
def isSatisfied : Json → Bool
  | .bool b => b
  | _ => false

/-- The truth value that `to-boolean` gives. -/
def toBoolean : Json → Bool
  | .null => false
  | .bool b => b
  | .num n => !(n.toFloat == 0) && !n.toFloat.isNaN
  | .str s => s != ""
  | .arr _ => true
  | .obj _ => true

/-- The property that a value names. -/
def property? (f : Feature) : Json → Option Json
  | .str key => f.property? key
  | _ => none

/-- Whether the characters of `needle` stand next to each other somewhere in `text`. -/
def isPartOf (needle : List Char) : (text : List Char) → Bool
  | [] => needle.isPrefixOf []
  | c :: text => needle.isPrefixOf (c :: text) || isPartOf needle text

/-- Whether a value is an item of an array or a part of a text. -/
def isContained (needle haystack : Json) : Bool :=
  match haystack, needle with
  | .arr items, needle => items.any fun item => Comparison.eq.holds needle item
  | .str text, .str part => isPartOf part.toList text.toList
  | _, _ => false

/-- Whether a value equals a label or one of a list of labels. -/
def isLabelled (input : Json) : Json → Bool
  | .arr labels => labels.any fun label => Comparison.eq.holds input label
  | label => Comparison.eq.holds input label

/-- The name that the arguments of `var` start with, the empty one if they do not. -/
def varName : List Json → String
  | .str name :: _ => name
  | _ => ""

/-- The values of the variables in scope. -/
abbrev Scope := String → Option Json

def Scope.empty : Scope := fun _ => none

/-- A scope with one more binding, which hides an earlier one of the name. -/
def Scope.bind (scope : Scope) (name : String) (v : Json) : Scope :=
  fun other => if other = name then some v else scope other

/-! ### Values -/

mutual

def value (f : Feature) (scope : Scope) : Json → Except Failure Json
  | .arr (.str op :: args) =>
    match Operator.ofName? op with
    | some .literal => .ok (args.headD .null)
    | some .get => do return (property? f (← first f scope args)).getD .null
    | some .has => do return .bool (property? f (← first f scope args)).isSome
    | some .id => .ok (f.id.getD .null)
    | some .geometryType => .ok ((f.geometryType.map Json.str).getD .null)
    | some .not => do return .bool (!isSatisfied (← first f scope args))
    | some .all => do return .bool (← allTrue f scope args)
    | some .any => do return .bool (← anyTrue f scope args)
    | some (.compare c) => do
      let a ← first f scope args
      return .bool (c.holds a (← second f scope args))
    | some .contained => do
      let needle ← first f scope args
      return .bool (isContained needle (← second f scope args))
    | some .coalesce => firstPresent f scope args
    | some .choose => firstChosen f scope args
    | some .select => selected f scope args
    | some .toBoolean => do return .bool (toBoolean (← first f scope args))
    | some .bind => bound f scope (.arr (.str op :: args)) scope args
    | some .var =>
      match scope (varName args) with
      | some v => .ok v
      | none => .error (.unbound (varName args))
    | none => .error (.unknownOperator op)
  | .arr items => .error (.malformed (.arr items))
  | .obj ms => .error (.malformed (.obj ms))
  | scalar => .ok scalar

def first (f : Feature) (scope : Scope) : List Json → Except Failure Json
  | [] => .ok .null
  | x :: _ => value f scope x

def second (f : Feature) (scope : Scope) : List Json → Except Failure Json
  | [] => .ok .null
  | _ :: xs => first f scope xs

/-- Whether all arguments are true; those after the first one that is not are not looked at. -/
def allTrue (f : Feature) (scope : Scope) : List Json → Except Failure Bool
  | [] => .ok true
  | x :: xs => do if isSatisfied (← value f scope x) then allTrue f scope xs else .ok false

/-- Whether some argument is true; those after the first one that is are not looked at. -/
def anyTrue (f : Feature) (scope : Scope) : List Json → Except Failure Bool
  | [] => .ok false
  | x :: xs => do if isSatisfied (← value f scope x) then .ok true else anyTrue f scope xs

/-- The first value that is not `null`. -/
def firstPresent (f : Feature) (scope : Scope) : List Json → Except Failure Json
  | [] => .ok .null
  | x :: xs => do
    match ← value f scope x with
    | .null => firstPresent f scope xs
    | v => .ok v

/-- The value after the first condition that is true, of conditions and values in turn; the last
argument is the fallback, and one left over before it is not looked at. -/
def firstChosen (f : Feature) (scope : Scope) : List Json → Except Failure Json
  | [] => .ok .null
  | [fallback] => value f scope fallback
  | [_, fallback] => value f scope fallback
  | condition :: output :: more => do
    if isSatisfied (← value f scope condition) then value f scope output
    else firstChosen f scope more

/-- The value that the branches after the first argument have for it. -/
def selected (f : Feature) (scope : Scope) : List Json → Except Failure Json
  | [] => .ok .null
  | input :: branches => do firstLabelled f scope (← value f scope input) branches

/-- The value after the first labels that `input` equals, of labels and values in turn; the last
argument is the fallback, and one left over before it is not looked at. -/
def firstLabelled (f : Feature) (scope : Scope) (input : Json) : List Json → Except Failure Json
  | [] => .ok .null
  | [fallback] => value f scope fallback
  | [_, fallback] => value f scope fallback
  | labels :: output :: more =>
    if isLabelled input labels then value f scope output
    else firstLabelled f scope input more

/-- The value of the last argument where the names before it are bound to the values that they
are paired with.  The values are evaluated in the enclosing scope, the body in the scope `inner`
that holds the names bound so far; `node` is the whole `let`. -/
def bound (f : Feature) (scope : Scope) (node : Json) (inner : Scope) :
    List Json → Except Failure Json
  | [] => .ok .null
  | [body] => value f inner body
  | [_, _] => .error (.malformed node)
  | .str name :: x :: more => do bound f scope node (inner.bind name (← value f scope x)) more
  | _ :: _ :: _ => .error (.malformed node)

end

end Expression

/-! ## Filters of either dialect -/

/-- Whether a feature passes a filter: every feature passes `null`, and it passes an expression
whose value is `true`. -/
def passes (f : Feature) (filter : Json) : Except Failure Bool :=
  match filter with
  | .null => .ok true
  | filter =>
    match Dialect.ofFilter (some filter) with
    | .legacy => Legacy.passes f filter
    | .expression => (Expression.value f .empty filter).map Expression.isSatisfied

end Filter

end Chronomap
