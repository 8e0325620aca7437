/-!
# Doubles as significand and exponent

A finite double is `± significand · 2 ^ exponent`.  The significand has 53 bits, or fewer when
the exponent is the smallest one, −1074.
-/

namespace Chronomap

/-- A double taken apart. -/
structure Binary where
  negative : Bool
  significand : Nat
  exponent : Int
deriving DecidableEq

namespace Binary

/-! ## Algorithm -/

/-- The leading bit of a significand of full length, 2 ^ 52. -/
def leadingBit : Nat := 1 <<< 52

def ofFloat (x : Float) : Binary :=
  let bits := x.toBits.toNat
  let biased : Nat := bits / leadingBit % 2048
  let fraction := bits % leadingBit
  { negative := bits >>> 63 == 1
    significand := if biased = 0 then fraction else leadingBit + fraction
    exponent := if biased = 0 then -1074 else (biased : Int) - 1075 }

/-- The double with the given parts, if it is in range.  A significand that rounding has
carried to 2 ^ 53 spills over into the exponent field, which is the carry it calls for. -/
def toFloat? (b : Binary) : Option Float :=
  let magnitude := (b.exponent + 1074).toNat * leadingBit + b.significand
  if magnitude < 2047 * leadingBit then
    some (Float.ofBits (UInt64.ofNat ((if b.negative then 1 <<< 63 else 0) + magnitude)))
  else none

end Binary

/-! ## Rounding a quotient -/

/-- The integer nearest to `n / d`; a half goes to the even neighbour. -/
def roundQuotient (n d : Nat) : Nat :=
  let q := n / d
  let r := n % d
  if d < 2 * r ∨ 2 * r = d ∧ q % 2 = 1 then q + 1 else q

/-- Whether `n / d` is at least `2 ^ e`. -/
def powerOfTwoLe (n d : Nat) (e : Int) : Bool :=
  d <<< e.toNat ≤ n <<< (-e).toNat

/-- The largest `e` with `2 ^ e ≤ n / d`: the bit lengths of both leave two candidates. -/
def logTwo (n d : Nat) : Int :=
  let e : Int := n.log2 - d.log2
  if powerOfTwoLe n d e then e else e - 1

/-- The parts of the double nearest to `± n / d`; a tie goes to the even significand. -/
def Binary.nearest (negative : Bool) (n d : Nat) : Binary :=
  let e := max (-1074) (logTwo n d - 52)
  { negative
    significand := roundQuotient (n <<< (-e).toNat) (d <<< e.toNat)
    exponent := e }

end Chronomap
