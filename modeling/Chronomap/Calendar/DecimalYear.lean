import Chronomap.Calendar.Instant

/-!
# Decimal years

An instant as a year and the fraction of that year that has passed, to the millisecond.  The
fraction is kept exact, as milliseconds over the length of the year; `toFloat` rounds it.
-/

namespace Chronomap

/-! ## Numbering -/

/-- How the years before year 1 are numbered. -/
inductive Numbering where
  /-- Year 0 exists, and the year before it is −1. -/
  | astronomical
  /-- There is no year 0 among the negative years: each is numbered one lower. -/
  | historical
deriving DecidableEq

namespace Numbering

/-- The number of an astronomical year. -/
def number : Numbering → Int → Int
  | astronomical, y => y
  | historical, y => if y < 0 then y - 1 else y

def name : Numbering → String
  | astronomical => "astronomical"
  | historical => "historical"

def ofName? : String → Option Numbering
  | "astronomical" => some astronomical
  | "historical" => some historical
  | _ => none

end Numbering

/-! ## Decimal years -/

/-- The number of a year and the part of it that has passed. -/
structure DecimalYear where
  whole : Int
  /-- Milliseconds since January 1. -/
  elapsed : Nat
  /-- Milliseconds of the year. -/
  length : Nat
deriving DecidableEq

/-- The decimal year of an instant.  A leap second counts its milliseconds on past the full
second. -/
def Instant.decimalYear (t : Instant) (numbering : Numbering) : DecimalYear :=
  let d := t.date
  { whole := numbering.number d.year
    elapsed := d.dayOfYear * 86400000 + t.secondOfDay * 1000 + t.nanos / 1000000
    length := yearLength d.year * 86400000 }

/-- The decimal year in double precision: the fraction is rounded before it is added. -/
def DecimalYear.toFloat (y : DecimalYear) : Float :=
  Float.ofInt y.whole + Float.ofNat y.elapsed / Float.ofNat y.length

end Chronomap
