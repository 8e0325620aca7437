import Chronomap.Decimal.Binary
import Chronomap.Text.Digits

/-!
# Decimals and doubles

A decimal `coefficient · 10 ^ exponent` is read as the nearest double, and a double is written
as the shortest decimal that is read back as the same double, the nearest one if there are two.
-/

namespace Chronomap

/-- A decimal without a sign. -/
structure Decimal where
  coefficient : Nat
  exponent : Int
deriving DecidableEq

namespace Decimal

/-! ## Reading -/

/-- The decimal of the same value whose coefficient does not end in a zero. -/
def reduced (coefficient : Nat) (exponent : Int) : Decimal :=
  if h : coefficient ≠ 0 ∧ coefficient % 10 = 0 then
    reduced (coefficient / 10) (exponent + 1)
  else ⟨coefficient, exponent⟩
termination_by coefficient
decreasing_by exact Nat.div_lt_self (Nat.pos_of_ne_zero h.1) (by decide)

/-- The double nearest to a decimal, if it is in range.  Decimals beyond 10 ^ 400 overflow and
those below 2 ^ (−1100) vanish; they are told apart without computing the power. -/
def toFloat? (negative : Bool) (d : Decimal) : Option Float :=
  if d.coefficient = 0 then Binary.toFloat? ⟨negative, 0, -1074⟩
  else if 400 < d.exponent then none
  else if d.coefficient.log2 + 1 + 3 * d.exponent < -1100 then
    Binary.toFloat? ⟨negative, 0, -1074⟩
  else
    (Binary.nearest negative (d.coefficient * Nat.pow 10 d.exponent.toNat)
      (Nat.pow 10 (-d.exponent).toNat)).toFloat?

/-! ## Writing -/

/-- The decimal that equals `significand · 2 ^ exponent`. -/
def exact (b : Binary) : Decimal :=
  if 0 ≤ b.exponent then reduced (b.significand <<< b.exponent.toNat) 0
  else reduced (b.significand * Nat.pow 5 (-b.exponent).toNat) b.exponent

/-- The multiples of `10 ^ e` next to `n / d`, the nearer one first; of two equally near the
even one is first. -/
def neighbours (n d : Nat) (e : Int) : List Decimal :=
  let n := n * Nat.pow 10 (-e).toNat
  let d := d * Nat.pow 10 e.toNat
  let below := n / d
  if roundQuotient n d = below then [reduced below e, reduced (below + 1) e]
  else [reduced (below + 1) e, reduced below e]

/-- The first decimal on the grids `10 ^ e`, `10 ^ (e − 1)`, … that is read as the double `x`,
among the two neighbours of `n / d` on each of `grids` grids. -/
def onGrids? (x : Float) (negative : Bool) (n d : Nat) : (grids : Nat) → (e : Int) → Option Decimal
  | 0, _ => none
  | grids + 1, e =>
    ((neighbours n d e).find? fun c => c.toFloat? negative = some x).or
      (onGrids? x negative n d grids (e - 1))

/-- The shortest decimal that is read as the finite double `x`; the sign is left out.  Seventeen
digits always suffice, so the exact value is never needed. -/
def ofFloat (x : Float) : Decimal :=
  let b := Binary.ofFloat x
  if b.significand = 0 then ⟨0, 0⟩
  else
    let top := (b.significand.log2 + 1 + b.exponent) * 30103 / 100000 + 1
    (onGrids? x b.negative (b.significand <<< b.exponent.toNat) (1 <<< (-b.exponent).toNat) 20
      top).getD (exact b)

/-! ## Notation -/

/-- Positional notation; there is always a point and a digit on both sides of it. -/
def positional (d : Decimal) : List Char :=
  let digits := Digits.numeral d.coefficient
  if 0 ≤ d.exponent then digits ++ List.replicate d.exponent.toNat '0' ++ ['.', '0']
  else
    let places := (-d.exponent).toNat
    if places < digits.length then
      digits.take (digits.length - places) ++ '.' :: digits.drop (digits.length - places)
    else '0' :: '.' :: List.replicate (places - digits.length) '0' ++ digits

/-- The exponent of the first digit. -/
def leading (d : Decimal) : Int := d.exponent + ((Digits.numeral d.coefficient).length - 1 : Nat)

def scientific (d : Decimal) : List Char :=
  let fraction := (Digits.numeral d.coefficient).drop 1
  (Digits.numeral d.coefficient).take 1 ++ (if fraction = [] then [] else '.' :: fraction) ++
    'e' :: (if d.leading < 0 then '-' else '+') :: Digits.numeral d.leading.natAbs

/-- Positional from 0.00001 up to sixteen digits before the point, scientific elsewhere. -/
def chars (d : Decimal) : List Char :=
  if -5 ≤ d.leading ∧ d.leading ≤ 15 then d.positional else d.scientific

end Decimal

def floatChars (x : Float) : List Char :=
  (if (Binary.ofFloat x).negative then ['-'] else []) ++ (Decimal.ofFloat x).chars

end Chronomap
