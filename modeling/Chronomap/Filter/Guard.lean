import Chronomap.Filter.Dialect
import Chronomap.Filter.Guard.Basic
import Chronomap.Filter.Qualifier

/-!
# Guarding filters

A filter is guarded in the dialect that it is written in.  The legacy dialect has no variables, so
a guard holds the period as literals:

    ["all",
      ["any",
        ["all", ["has", "start_decdate"], ["<", "start_decdate", endDecimalYear]],
        ["all", ["!has", "start_decdate"], ["has", "start_date"], ["<", "start_date", endISODate]],
        ["all", ["!has", "start_decdate"], ["!has", "start_date"]]],
      ["any", (the same for end_decdate and end_date, with ">=" and the start of the period)],
      guarded filter]

A filter of exactly this shape is read back as a guard, whatever its literals are; setting a
period replaces the literals that the period has.

In an expression the period is bound to variables once, and the tests refer to them:

    ["let",
      "mapdate__startDecimalYear", 2013.0, "mapdate__startISODate", "2013-01-01",
      "mapdate__endDecimalYear", 2014.0, "mapdate__endISODate", "2014-01-01",
      ["all",
        ["any",
          ["all", ["has", "start_decdate"],
                  ["<", ["get", "start_decdate"], ["var", "mapdate__endDecimalYear"]]],
          ["all", ["!", ["has", "start_decdate"]], ["has", "start_date"],
                  ["<", ["get", "start_date"], ["var", "mapdate__endISODate"]]],
          ["all", ["!", ["has", "start_decdate"]], ["!", ["has", "start_date"]]]],
        ["any", (the same for end_decdate and end_date, with ">=" and the start of the period)],
        guarded filter]]

A `let` that binds any of these variables is taken for a guard; setting a period binds the
variables that the period has a value for.
-/

namespace Chronomap.Filter

/-! ## Legacy filters -/

namespace Literal

/-- The literals that one side of a lifespan is compared with. -/
structure Limits where
  decimalYear : Json
  isoDate : Json

/-- A guard and the filter that it guards, if there is one. -/
structure Guard where
  start : Limits
  finish : Limits
  guarded : Option Json

/-! ### Writing -/

/-- The test that one side of a lifespan is within its limits. -/
def clause (side : Side) (limits : Limits) : Json :=
  let decimal := Json.str (side.property .decimalYear)
  let iso := Json.str (side.property .isoDate)
  let within := side.comparison.name
  call "any" [
    call "all" [call "has" [decimal], call within [decimal, limits.decimalYear]],
    call "all" [call "!has" [decimal], call "has" [iso], call within [iso, limits.isoDate]],
    call "all" [call "!has" [decimal], call "!has" [iso]]]

def Guard.toFilter (g : Guard) : Json :=
  call "all" (clause .start g.start :: clause .finish g.finish :: g.guarded.toList)

/-! ### Reading -/

/-- The literal that a property is compared with. -/
def limit? (side : Side) (scale : Scale) (v : Json) : Option Json :=
  match args? side.comparison.name v with
  | some [key, literal] => if key = .str (side.property scale) then some literal else none
  | _ => none

/-- The limits in a test that `clause` may have written. -/
def limits? (side : Side) (v : Json) : Option Limits :=
  let decimal := Json.str (side.property .decimalYear)
  let iso := Json.str (side.property .isoDate)
  match args? "any" v with
  | some [byDecimal, byIso, unlimited] =>
    match args? "all" byDecimal, args? "all" byIso with
    | some [hasDecimal, decimalWithin], some [lacksDecimal, hasIso, isoWithin] =>
      if hasDecimal = call "has" [decimal] ∧ lacksDecimal = call "!has" [decimal] ∧
          hasIso = call "has" [iso] ∧
          unlimited = call "all" [call "!has" [decimal], call "!has" [iso]] then
        match limit? side .decimalYear decimalWithin, limit? side .isoDate isoWithin with
        | some d, some i => some ⟨d, i⟩
        | _, _ => none
      else none
    | _, _ => none
  | _ => none

def Guard.ofFilter? (v : Json) : Option Guard :=
  match args? "all" v with
  | some [s, f] =>
    match limits? .start s, limits? .finish f with
    | some start, some finish => some ⟨start, finish, none⟩
    | _, _ => none
  | some [s, f, guarded] =>
    match limits? .start s, limits? .finish f with
    | some start, some finish => some ⟨start, finish, some guarded⟩
    | _, _ => none
  | _ => none

/-! ### Setting a period -/

/-- The limits of one side of a lifespan that a period sets; a limit that the period does not
have is kept. -/
def Limits.set (limits : Limits) (side : Side) (p : Period) : Limits where
  decimalYear := (p.value? ⟨side.opposite, .decimalYear⟩).getD limits.decimalYear
  isoDate := (p.value? ⟨side.opposite, .isoDate⟩).getD limits.isoDate

def Guard.set (g : Guard) (p : Period) : Guard where
  start := g.start.set .start p
  finish := g.finish.set .finish p
  guarded := g.guarded

/-- A guard that is not set to any period. -/
def Guard.unset (guarded : Option Json) : Guard := ⟨⟨.null, .null⟩, ⟨.null, .null⟩, guarded⟩

/-- Guards a filter by a period: a filter that is a guard is set to the period, and any other
filter gets a guard of its own, in which a limit that the period does not have is `null`. -/
def constrain (filter : Option Json) (p : Period) : Json :=
  let filter := present filter
  let guard := (filter.bind Guard.ofFilter?).getD (.unset filter)
  (guard.set p).toFilter

end Literal

/-! ## Expressions -/

namespace Variable

/-- Names bound to values, and the expression in which they are. -/
structure Binder where
  bindings : Json.Members
  body : Json

def name (q : Qualifier) (field : Field) : String := q.variableName field.name

/-! ### Writing -/

/-- The test that one side of a lifespan is within its limits. -/
def clause (q : Qualifier) (side : Side) : Json :=
  let decimal := Json.str (side.property .decimalYear)
  let iso := Json.str (side.property .isoDate)
  let limit := fun scale => call "var" [.str (name q ⟨side.opposite, scale⟩)]
  let within := side.comparison.name
  let lacksDecimal := call "!" [call "has" [decimal]]
  call "any" [
    call "all" [call "has" [decimal], call within [call "get" [decimal], limit .decimalYear]],
    call "all" [lacksDecimal, call "has" [iso], call within [call "get" [iso], limit .isoDate]],
    call "all" [lacksDecimal, call "!" [call "has" [iso]]]]

/-- The tests of both sides and the filter that they guard. -/
def tests (q : Qualifier) (guarded : Option Json) : Json :=
  call "all" (clause q .start :: clause q .finish :: guarded.toList)

/-- Names and values in turn, and the body at the end. -/
def binderArgs (body : Json) : Json.Members → List Json
  | [] => [body]
  | (key, v) :: bindings => .str key :: v :: binderArgs body bindings

def Binder.toFilter (b : Binder) : Json := call "let" (binderArgs b.body b.bindings)

/-! ### Reading -/

/-- The bindings and the body in the arguments of a `let`: pairs that start with a string, and
one more argument. -/
def binder? : List Json → Option Binder
  | [] => none
  | [body] => some ⟨[], body⟩
  | .str key :: v :: args => (binder? args).map fun b => ⟨(key, v) :: b.bindings, b.body⟩
  | _ :: _ :: _ => none

def Binder.ofFilter? (v : Json) : Option Binder := (args? "let" v).bind binder?

/-- Whether a name is one of the variables of a qualifier. -/
def isOwn (q : Qualifier) (key : String) : Bool := Field.all.any fun field => name q field == key

/-- Whether a binder binds one of the variables of a qualifier. -/
def Binder.isGuard (q : Qualifier) (b : Binder) : Bool := b.bindings.any fun m => isOwn q m.1

/-! ### Setting a period -/

/-- The variables that a period has a value for, in the order of the fields. -/
def values (q : Qualifier) (p : Period) : Json.Members :=
  Field.all.filterMap fun field => (p.value? field).map (name q field, ·)

/-- Binds names to values: the first binding of a name is changed in place, and a name that is
not bound is added at the end. -/
def assign (new bindings : Json.Members) : Json.Members :=
  new.foldl (fun bindings m => Json.Members.insert m.1 m.2 bindings) bindings

def Binder.set (b : Binder) (q : Qualifier) (p : Period) : Binder :=
  ⟨assign (values q p) b.bindings, b.body⟩

/-- Guards a filter by a period: a `let` that binds a variable of the qualifier is set to the
period, and any other filter gets a guard of its own. -/
def constrain (filter : Option Json) (q : Qualifier) (p : Period) : Json :=
  let filter := present filter
  match (filter.bind Binder.ofFilter?).filter (·.isGuard q) with
  | some binder => (binder.set q p).toFilter
  | none => Binder.toFilter ⟨values q p, tests q filter⟩

end Variable

/-! ## Filters of either dialect -/

/-- Guards a filter by a period in the dialect that it is written in. -/
def constrain (filter : Option Json) (q : Qualifier) (p : Period) : Json :=
  match Dialect.ofFilter filter with
  | .legacy => Literal.constrain filter p
  | .expression => Variable.constrain filter q p

end Chronomap.Filter
