import Chronomap.Json.Basic
import Chronomap.Json.Quoted
import Chronomap.Decimal.Basic

/-!
# Reading JSON

The grammar of JSON with a limit on how deep arrays and objects may nest.  Of a repeated
key the last value counts, at the place of the first.  A number that no double can hold is
refused.
-/

namespace Chronomap.Json

/-! ## Numbers -/

/-- The double nearest to a decimal as a number. -/
def double? (negative : Bool) (d : Decimal) : Option Number :=
  (Decimal.toFloat? negative (Decimal.reduced d.coefficient d.exponent)).bind fun x =>
    if h : x.isFinite = true then some (.float x h) else none

/-- The number of an integer literal: an integer if it fits 64 bits, else a double.  There is no
negative zero among the integers. -/
def integer? (negative : Bool) (n : Nat) : Option Number :=
  let signed : Int := if negative then -n else n
  if h : (-9223372036854775808 ≤ signed ∧ signed < 18446744073709551616) ∧
      ¬(negative = true ∧ n = 0) then
    some (.int signed h.1)
  else double? negative ⟨n, 0⟩

/-- The digits after a point, none if there is no point; a point needs a digit after it. -/
def fraction? : List Char → Option (List Char × List Char)
  | '.' :: cs =>
    if cs.takeWhile Char.isDigit = [] then none
    else some (cs.takeWhile Char.isDigit, cs.dropWhile Char.isDigit)
  | cs => some ([], cs)

/-- The digits of an exponent with the given sign. -/
def exponentDigits? (sign : Int) (cs : List Char) : Option (Option Int × List Char) :=
  if cs.takeWhile Char.isDigit = [] then none
  else some (some (sign * Digits.value (cs.takeWhile Char.isDigit)), cs.dropWhile Char.isDigit)

/-- The exponent after `e` or `E`, nothing if there is none of both. -/
def exponent? : List Char → Option (Option Int × List Char)
  | [] => some (none, [])
  | c :: cs =>
    if c = 'e' ∨ c = 'E' then
      match cs with
      | '-' :: cs => exponentDigits? (-1) cs
      | '+' :: cs => exponentDigits? 1 cs
      | cs => exponentDigits? 1 cs
    else some (none, c :: cs)

/-- A number without its sign. -/
def unsigned? (negative : Bool) (cs : List Char) : Option (Number × List Char) :=
  let digits := cs.takeWhile Char.isDigit
  if digits = [] ∨ digits.head? = some '0' ∧ digits.length ≠ 1 then none
  else
    (fraction? (cs.dropWhile Char.isDigit)).bind fun (places, cs) =>
    (exponent? cs).bind fun (e, cs) =>
    if places = [] ∧ e = none then
      (integer? negative (Digits.value digits)).map (·, cs)
    else
      (double? negative
        ⟨Digits.value (digits ++ places), e.getD 0 - places.length⟩).map (·, cs)

def number? : List Char → Option (Number × List Char)
  | '-' :: cs => unsigned? true cs
  | cs => unsigned? false cs

/-! ## Values -/

/-- The blanks that may stand between tokens. -/
def isBlank (c : Char) : Bool := c == ' ' || c == '\t' || c == '\n' || c == '\r'

/-- Leaves out leading blanks. -/
def skipBlanks (cs : List Char) : List Char := cs.dropWhile isBlank

/-- One or more items with commas between them, up to `close`; `fuel` is as long as the text. -/
def separated? {α : Type} (item : List Char → Option (α × List Char)) (close : Char) :
    (fuel : Nat) → List Char → Option (List α × List Char)
  | 0, _ => none
  | fuel + 1, cs =>
    match item cs with
    | none => none
    | some (x, cs) =>
      match skipBlanks cs with
      | [] => none
      | c :: cs =>
        if c = ',' then (separated? item close fuel cs).map fun (xs, cs) => (x :: xs, cs)
        else if c = close then some ([x], cs)
        else none

/-- What follows an opening bracket, up to `close`. -/
def bracketed? {α : Type} (item : List Char → Option (α × List Char)) (close : Char)
    (cs : List Char) : Option (List α × List Char) :=
  match skipBlanks cs with
  | [] => none
  | c :: rest => if c = close then some ([], rest) else separated? item close cs.length cs

def member? (value : List Char → Option (Json × List Char)) (cs : List Char) :
    Option ((String × Json) × List Char) :=
  match skipBlanks cs with
  | '"' :: cs =>
    match contents? cs with
    | none => none
    | some (key, cs) =>
      match skipBlanks cs with
      | ':' :: cs => (value cs).map fun (v, cs) => ((String.ofList key, v), cs)
      | _ => none
  | _ => none

/-- The object with the given members, read from left to right. -/
def ofMembers (ms : Members) : Json := obj (ms.foldl (fun acc m => Members.insert m.1 m.2 acc) [])

/-- A value that nests at most `depth` arrays and objects. -/
def value? : (depth : Nat) → List Char → Option (Json × List Char)
  | depth, cs =>
    match skipBlanks cs with
    | '{' :: cs =>
      match depth with
      | 0 => none
      | depth + 1 =>
        (bracketed? (member? (value? depth)) '}' cs).map fun (ms, cs) => (ofMembers ms, cs)
    | '[' :: cs =>
      match depth with
      | 0 => none
      | depth + 1 => (bracketed? (value? depth) ']' cs).map fun (xs, cs) => (arr xs, cs)
    | '"' :: cs => (contents? cs).map fun (s, cs) => (str (String.ofList s), cs)
    | 'n' :: 'u' :: 'l' :: 'l' :: cs => some (null, cs)
    | 't' :: 'r' :: 'u' :: 'e' :: cs => some (bool true, cs)
    | 'f' :: 'a' :: 'l' :: 's' :: 'e' :: cs => some (bool false, cs)
    | cs => (number? cs).map fun (n, cs) => (num n, cs)

def parse? (depth : Nat) (text : String) : Option Json :=
  match value? depth text.toList with
  | some (v, rest) => if skipBlanks rest = [] then some v else none
  | none => none

end Chronomap.Json
