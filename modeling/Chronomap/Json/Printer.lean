import Chronomap.Json.Basic
import Chronomap.Json.Quoted
import Chronomap.Decimal.Basic

/-!
# JSON as text

The compact form has no blanks.  The pretty form puts every item and every member on a line of
its own, indented by two spaces a level; empty arrays and objects stay on their line.
-/

namespace Chronomap.Json

/-- A number as text: an integer in full, a double as its shortest decimal. -/
def Number.chars : Number → List Char
  | .int n _ => (if n < 0 then ['-'] else []) ++ Digits.numeral n.natAbs
  | .float x _ => floatChars x

def boolChars : Bool → List Char
  | true => ['t', 'r', 'u', 'e']
  | false => ['f', 'a', 'l', 's', 'e']

/-! ## Compact -/

mutual

/-- A value without blanks. -/
def compactChars : Json → List Char
  | null => ['n', 'u', 'l', 'l']
  | bool b => boolChars b
  | num n => n.chars
  | str s => quoted s
  | arr xs => '[' :: (compactItems xs ++ [']'])
  | obj ms => '{' :: (compactMembers ms ++ ['}'])

def compactItems : List Json → List Char
  | [] => []
  | x :: xs => compactChars x ++ compactMoreItems xs

/-- Items, each after a comma. -/
def compactMoreItems : List Json → List Char
  | [] => []
  | x :: xs => ',' :: (compactChars x ++ compactMoreItems xs)

def compactMembers : List (String × Json) → List Char
  | [] => []
  | (k, x) :: ms => quoted k ++ ':' :: (compactChars x ++ compactMoreMembers ms)

def compactMoreMembers : List (String × Json) → List Char
  | [] => []
  | (k, x) :: ms => ',' :: (quoted k ++ ':' :: (compactChars x ++ compactMoreMembers ms))

end

/-- A value on one line, without blanks. -/
def compact (v : Json) : String := String.ofList (compactChars v)

/-! ## Pretty -/

/-- A new line at a level of indentation. -/
def newline (level : Nat) : List Char := '\n' :: List.replicate (2 * level) ' '

mutual

/-- A value whose first line is at a level of indentation. -/
def prettyChars (level : Nat) : Json → List Char
  | null => ['n', 'u', 'l', 'l']
  | bool b => boolChars b
  | num n => n.chars
  | str s => quoted s
  | arr [] => ['[', ']']
  | arr (x :: xs) =>
    '[' :: (newline (level + 1) ++ prettyChars (level + 1) x ++ prettyItems level xs)
  | obj [] => ['{', '}']
  | obj ((k, x) :: ms) =>
    '{' :: (newline (level + 1) ++ quoted k ++ ':' :: ' ' :: prettyChars (level + 1) x ++
      prettyMembers level ms)

/-- The items after the first and the closing bracket. -/
def prettyItems (level : Nat) : List Json → List Char
  | [] => newline level ++ [']']
  | x :: xs => ',' :: (newline (level + 1) ++ prettyChars (level + 1) x ++ prettyItems level xs)

def prettyMembers (level : Nat) : List (String × Json) → List Char
  | [] => newline level ++ ['}']
  | (k, x) :: ms =>
    ',' :: (newline (level + 1) ++ quoted k ++ ':' :: ' ' :: prettyChars (level + 1) x ++
      prettyMembers level ms)

end

/-- A value over several lines. -/
def pretty (v : Json) : String := String.ofList (prettyChars 0 v)

end Chronomap.Json
