import Chronomap.Calendar.Instant
import Chronomap.Text.Digits

/-!
# Timestamps

An instant in the notation of Internet timestamps, `YYYY-MM-DDThh:mm:ss.fff` and an offset.
-/

namespace Chronomap

/-! ## Algorithm -/

/-- The year of a timestamp: four digits for the years 0 to 9999, else a sign and at least
four digits. -/
def timestampYear (y : Int) : List Char :=
  if 0 ≤ y ∧ y ≤ 9999 then Digits.field 4 y.toNat
  else (if y < 0 then '-' else '+') :: Digits.padded 4 y.natAbs

/-- A fraction of a second in 3, 6 or 9 digits, the fewest that are exact; none if it is 0. -/
def fractionText (nanos : Nat) : List Char :=
  if nanos = 0 then []
  else if nanos % 1000000 = 0 then '.' :: Digits.field 3 (nanos / 1000000)
  else if nanos % 1000 = 0 then '.' :: Digits.field 6 (nanos / 1000)
  else '.' :: Digits.field 9 nanos

/-- An instant as a timestamp that ends in `offset`.  Inside a leap second the second is 60. -/
def Instant.timestamp (t : Instant) (offset : String) : String :=
  let d := t.date
  let s := t.secondOfDay
  String.ofList <|
    timestampYear d.year ++ '-' :: Digits.field 2 d.month ++ '-' :: Digits.field 2 d.day ++
    'T' :: Digits.field 2 (s / 3600) ++ ':' :: Digits.field 2 (s / 60 % 60) ++
    ':' :: Digits.field 2 (s % 60 + t.nanos / 1000000000) ++
    fractionText (t.nanos % 1000000000) ++ offset.toList

end Chronomap
