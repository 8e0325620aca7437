/-!
# Qualifiers

A variable of a date guard is named by a qualifier, two underscores and a field.  Qualifiers are
identifiers that hold no two underscores in a row and end in none, so the name can be taken
apart in one way only.
-/

namespace Chronomap

/-- Why a text is no qualifier. -/
inductive QualifierFault where
  | empty
  | leadingDigit
  | strayCharacter
  | separator
deriving DecidableEq

def QualifierFault.reason : QualifierFault → String
  | empty => "must not be empty"
  | leadingDigit => "must not start with a digit"
  | strayCharacter => "may only contain ASCII letters, digits and '_'"
  | separator => "must not contain '__' or end with '_'"

def QualifierFault.message (fault : QualifierFault) (text : String) : String :=
  "invalid variable prefix '" ++ text ++ "': " ++ fault.reason

/-- Letters and digits of ASCII and the underscore. -/
def isIdentifierChar (c : Char) : Bool := c.isAlphanum || c == '_'

/-- Whether two underscores stand in a row or one stands at the end. -/
def hasSeparator : List Char → Bool
  | [] => false
  | ['_'] => true
  | '_' :: '_' :: _ => true
  | _ :: cs => hasSeparator cs

/-- What is wrong with a text as a qualifier, if anything; the first fault in the order of
`QualifierFault` counts. -/
def qualifierFault? : List Char → Option QualifierFault
  | [] => some .empty
  | c :: cs =>
    if c.isDigit then some .leadingDigit
    else if !(c :: cs).all isIdentifierChar then some .strayCharacter
    else if hasSeparator (c :: cs) then some .separator
    else none

/-- The first part of the names of guard variables. -/
structure Qualifier where
  text : String
  faultless : qualifierFault? text.toList = none
deriving DecidableEq

namespace Qualifier

def ofString (text : String) : Except QualifierFault Qualifier :=
  match h : qualifierFault? text.toList with
  | none => .ok ⟨text, h⟩
  | some fault => .error fault

/-- The qualifier used when none is chosen. -/
def standard : Qualifier := ⟨"mapdate", by decide⟩

def variableName (q : Qualifier) (field : String) : String := q.text ++ "__" ++ field

end Qualifier

end Chronomap
