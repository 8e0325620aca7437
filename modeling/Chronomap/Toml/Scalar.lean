import Chronomap.Calendar.Gregorian
import Chronomap.Text.Digits
import Chronomap.Text.Hexadecimal
import Chronomap.Text.Pieces

/-!
# Numbers, truth values and dates of TOML

No setting takes one of these, so nothing is computed from them.  Dates are checked in full.
Numbers are checked only as far as it takes to tell them from other words: an integer after a
prefix for its base may lack digits, and of what follows the first underscore of a decimal integer
only the places of further underscores are looked at.
-/

namespace Chronomap.Toml

/-! ## Numbers -/

/-- Digits of a base, in which an underscore may stand between two of them. -/
def isDigits (isDigit : Char → Bool) : List Char → Bool
  | [] => false
  | [c] => isDigit c
  | c :: '_' :: cs => isDigit c && isDigits isDigit cs
  | c :: cs => isDigit c && isDigits isDigit cs

/-- Characters of a run of decimal digits. -/
def isPlace (c : Char) : Bool := c.isDigit || c == '_'

/-- A text without the sign that it may start with. -/
def unsigned : List Char → List Char
  | '+' :: cs => cs
  | '-' :: cs => cs
  | cs => cs

/-- Decimal digits without a leading zero. -/
def isDecimal (cs : List Char) : Bool :=
  isDigits Char.isDigit cs && (cs.length == 1 || cs.head? != some '0')

/-- What may follow the whole part of a number: an exponent. -/
def isExponent : List Char → Bool
  | [] => true
  | c :: cs => (c == 'e' || c == 'E') && isDigits Char.isDigit (unsigned cs)

/-- What may follow the whole part of a number: a fraction and an exponent. -/
def isFraction : List Char → Bool
  | '.' :: cs =>
    isDigits Char.isDigit (cs.takeWhile isPlace) && isExponent (cs.dropWhile isPlace)
  | cs => isExponent cs

/-- A number in base ten without a sign: an integer or a fraction. -/
def isPlainNumber (cs : List Char) : Bool :=
  isDecimal (cs.takeWhile isPlace) && isFraction (cs.dropWhile isPlace)

/-- Whether underscores stand between hexadecimal digits only, in a text that has one before it
and is cut at the others. -/
def areGroups : List (List Char) → Bool
  | [] => false
  | [last] => last.head?.any Hexadecimal.isDigit
  | group :: more =>
    group.head?.any Hexadecimal.isDigit && group.getLast?.any Hexadecimal.isDigit && areGroups more

/-- What may follow the first underscore of an integer: anything in which further underscores
stand between hexadecimal digits, but no sign of a fraction. -/
def isGrouped (cs : List Char) : Bool :=
  cs.all (fun c => c != '.' && c != 'e' && c != 'E') && areGroups (pieces '_' cs)

/-- An integer with an underscore: digits without a leading zero, and what may follow them. -/
def isGroupedInteger (cs : List Char) : Bool :=
  cs.head?.any (fun c => c.isDigit && c != '0') &&
    match cs.dropWhile Char.isDigit with
    | '_' :: more => isGrouped more
    | _ => false

/-- A number in base ten with an optional sign. -/
def isNumber (cs : List Char) : Bool :=
  let number := unsigned cs
  number == "inf".toList || number == "nan".toList || isPlainNumber number ||
    isGroupedInteger number

/-- An integer in base sixteen, eight or two; the digits may be missing. -/
def isBasedNumber : List Char → Bool
  | '0' :: 'x' :: cs => cs == [] || isDigits Hexadecimal.isDigit cs
  | '0' :: 'o' :: cs => cs == [] || isDigits (fun c => '0' ≤ c && c ≤ '7') cs
  | '0' :: 'b' :: cs => cs == [] || isDigits (fun c => c == '0' || c == '1') cs
  | _ => false

/-! ## Dates and times -/

/-- Whether all characters are digits that stand for a number from `low` to `high`. -/
def isWithin (low high : Nat) (cs : List Char) : Bool :=
  cs.all Char.isDigit && low ≤ Digits.value cs && Digits.value cs ≤ high

def isDate : List Char → Bool
  | [y1, y2, y3, y4, '-', m1, m2, '-', d1, d2] =>
    isWithin 0 9999 [y1, y2, y3, y4] && isWithin 1 12 [m1, m2] &&
      isWithin 1 (monthLength (Digits.value [y1, y2, y3, y4]) (Digits.value [m1, m2])) [d1, d2]
  | _ => false

/-- A fraction of a second, or nothing. -/
def isSecondFraction : List Char → Bool
  | [] => true
  | '.' :: c :: cs => (c :: cs).all Char.isDigit
  | _ => false

/-- A time of day, with or without seconds. -/
def isTime : List Char → Bool
  | [h1, h2, ':', m1, m2] => isWithin 0 23 [h1, h2] && isWithin 0 59 [m1, m2]
  | h1 :: h2 :: ':' :: m1 :: m2 :: ':' :: s1 :: s2 :: cs =>
    isWithin 0 23 [h1, h2] && isWithin 0 59 [m1, m2] && isWithin 0 60 [s1, s2] &&
      isSecondFraction cs
  | _ => false

def isOffset : List Char → Bool
  | [c] => c == 'Z' || c == 'z'
  | [sign, h1, h2, ':', m1, m2] =>
    (sign == '+' || sign == '-') && isWithin 0 23 [h1, h2] && isWithin 0 59 [m1, m2]
  | _ => false

def isTimeWithOffset (cs : List Char) : Bool :=
  let isTimeChar := fun c : Char => c.isDigit || c == ':' || c == '.'
  isTime (cs.takeWhile isTimeChar) &&
    (cs.dropWhile isTimeChar == [] || isOffset (cs.dropWhile isTimeChar))

/-- A date, a time of day, or both. -/
def isDateTime (cs : List Char) : Bool :=
  isTime cs || isDate cs ||
    match cs.drop 10 with
    | c :: time =>
      (c == 'T' || c == 't' || c == ' ') && isDate (cs.take 10) && isTimeWithOffset time
    | [] => false

/-! ## Scalars -/

/-- Characters of scalars: all but blanks and the signs that have a meaning between values. -/
def isScalarChar (c : Char) : Bool := !("=,[]\x7b\x7d# \t\r\n".toList.contains c)

/-- The scalar that a text starts with, and the rest.  A date may be followed by a time after a
space. -/
def scalarText (cs : List Char) : List Char × List Char :=
  let word := cs.takeWhile isScalarChar
  let rest := cs.dropWhile isScalarChar
  match rest with
  | ' ' :: c :: more =>
    if isDate word && c.isDigit then
      (word ++ ' ' :: (c :: more).takeWhile isScalarChar, (c :: more).dropWhile isScalarChar)
    else (word, rest)
  | _ => (word, rest)

/-- A truth value, a number or a date. -/
def isScalar (cs : List Char) : Bool :=
  cs == "true".toList || cs == "false".toList || isNumber cs || isBasedNumber cs || isDateTime cs

end Chronomap.Toml
