import Chronomap.Calendar.Instant
import Chronomap.Text.Digits

/-!
# Dates as text

Dates are read as `YYYY`, `YYYY-MM` or `YYYY-MM-DD`, with one to four digits in the year and
an optional leading `-` for the years before year 0.  They are written as `YYYY-MM-DD`, and
with a sign and six digits in the year outside the years 0 to 9999.
-/

namespace Chronomap

/-! ## Reading -/

/-- A date as it is written: its parts need not name a day of the calendar. -/
inductive WrittenDate where
  | year (y : Int)
  | month (y : Int) (m : Nat)
  | day (y : Int) (m d : Nat)
deriving DecidableEq

namespace WrittenDate

/-- The number written in two digits. -/
def twoDigits? (a b : Char) : Option Nat :=
  if a.isDigit && b.isDigit then some (Digits.value [a, b]) else none

/-- What may follow the year: nothing, a month, or a month and a day. -/
def afterYear? (y : Int) : List Char → Option WrittenDate
  | [] => some (year y)
  | ['-', a, b] => (twoDigits? a b).map (month y)
  | ['-', a, b, '-', c, d] => (twoDigits? a b).bind fun m => (twoDigits? c d).map (day y m)
  | _ => none

/-- A year of one to four digits and what follows it; `sign` is 1 or −1. -/
def ofUnsigned? (sign : Int) (cs : List Char) : Option WrittenDate :=
  let digits := cs.takeWhile Char.isDigit
  if 1 ≤ digits.length ∧ digits.length ≤ 4 then
    afterYear? (sign * Digits.value digits) (cs.dropWhile Char.isDigit)
  else none

def ofChars? : List Char → Option WrittenDate
  | '-' :: cs => ofUnsigned? (-1) cs
  | cs => ofUnsigned? 1 cs

def ofString? (s : String) : Option WrittenDate := ofChars? s.toList

/-- Midnight of the first day that the date may mean. -/
def start? : WrittenDate → Option Instant
  | year y => Instant.ofCivil? y 0 1
  | month y m => Instant.ofCivil? y (m - 1) 1
  | day y m d => Instant.ofCivil? y (m - 1) d

/-- Midnight after the last day of a year or a month; a day ends where it starts. -/
def finish? : WrittenDate → Option Instant
  | year y => Instant.ofCivil? (y + 1) 0 1
  | month y m => Instant.ofCivil? y m 1
  | day y m d => Instant.ofCivil? y (m - 1) d

end WrittenDate

def Instant.ofIsoDate? (s : String) : Option Instant :=
  (WrittenDate.ofString? s).bind WrittenDate.start?

/-! ## Writing -/

/-- The year of a date: four digits for the years 0 to 9999, else a sign and six digits. -/
def yearText (y : Int) : List Char :=
  if 0 ≤ y ∧ y ≤ 9999 then Digits.field 4 y.toNat
  else (if y < 0 then '-' else '+') :: Digits.field 6 y.natAbs

/-- A date as `YYYY-MM-DD`. -/
def Date.isoChars (d : Date) : List Char :=
  yearText d.year ++ '-' :: Digits.field 2 d.month ++ '-' :: Digits.field 2 d.day

def Instant.isoDate (t : Instant) : String := String.ofList t.date.isoChars

end Chronomap
