import Chronomap.Proofs.Decimal.Exactness

/-!
# The decimal of a double

The decimal that a finite double is written as does not end in zeros, and it is read as the double:

    x.isFinite → (Decimal.ofFloat x).toFloat? (Binary.ofFloat x).negative = some x
                                                                       (Decimal.toFloat?_ofFloat)

Most decimals are read back because this is what they are chosen for.  The exact decimal, which is
taken if none of the shorter ones is, is read without rounding.
-/

namespace Chronomap.Decimal

/-! ## Trailing zeros -/

/-- A decimal whose coefficient does not end in a zero, or the shortest zero. -/
def IsReduced (d : Decimal) : Prop := d.coefficient % 10 ≠ 0 ∨ d = ⟨0, 0⟩

theorem reduced_of_mod_ne_zero {c : ℕ} (h : c % 10 ≠ 0) (e : ℤ) : reduced c e = ⟨c, e⟩ := by
  rw [reduced, dif_neg (fun hc => h hc.2)]

theorem reduced_zero (e : ℤ) : reduced 0 e = ⟨0, e⟩ := by
  rw [reduced, dif_neg (fun hc => hc.1 rfl)]

theorem reduced_mod_ne_zero {c : ℕ} (hc : c ≠ 0) (e : ℤ) : (reduced c e).coefficient % 10 ≠ 0 := by
  induction c, e using reduced.induct with
  | case1 c e h ih =>
    rw [reduced, dif_pos h]
    exact ih (by omega)
  | case2 c e h =>
    rw [reduced, dif_neg h]
    exact fun hzero => h ⟨hc, hzero⟩

/-- Zeros that are put behind a coefficient are taken off again. -/
theorem reduced_mul_pow {c : ℕ} (h : c % 10 ≠ 0) (k : ℕ) (e : ℤ) :
    reduced (c * 10 ^ k) (e - k) = ⟨c, e⟩ := by
  induction k with
  | zero => rw [pow_zero, mul_one, Nat.cast_zero, sub_zero, reduced_of_mod_ne_zero h]
  | succ k ih =>
    have hpos : 0 < c * 10 ^ k := Nat.mul_pos (by omega) (by positivity)
    have hzero : c * 10 ^ (k + 1) ≠ 0 ∧ c * 10 ^ (k + 1) % 10 = 0 := by
      rw [pow_succ, ← mul_assoc]
      omega
    have hexponent : e - ((k + 1 : ℕ) : ℤ) + 1 = e - k := by push_cast; ring
    rw [reduced, dif_pos hzero, hexponent, pow_succ, ← mul_assoc,
      Nat.mul_div_cancel _ (by decide), ih]

/-! ## Zero -/

theorem toFloat?_zero (negative : Bool) (e : ℤ) :
    toFloat? negative ⟨0, e⟩ = Binary.toFloat? ⟨negative, 0, -1074⟩ := if_pos rfl

/-- Only zeros are read from a decimal without value. -/
theorem significand_of_toFloat?_zero {negative : Bool} {e : ℤ} {x : Float}
    (h : toFloat? negative ⟨0, e⟩ = some x) : (Binary.ofFloat x).significand = 0 := by
  rw [toFloat?_zero] at h
  cases negative with
  | false =>
    obtain rfl : Float.ofBits 0 = x := Option.some.inj h
    decide
  | true =>
    obtain rfl : Float.ofBits 9223372036854775808 = x := Option.some.inj h
    decide

/-! ## Reading back -/

/-- What is found on the grids is read as the double that was looked for. -/
theorem toFloat?_of_onGrids? {x : Float} {negative : Bool} {n d : ℕ} {c : Decimal} {grids : ℕ}
    {e : ℤ} (h : onGrids? x negative n d grids e = some c) :
    (∃ k f, c = reduced k f) ∧ c.toFloat? negative = some x := by
  induction grids generalizing e with
  | zero => cases h
  | succ grids ih =>
    rw [onGrids?, Option.or_eq_some_iff] at h
    rcases h with h | ⟨-, h⟩
    · have hmem := List.mem_of_find?_eq_some h
      have hread := List.find?_some h
      refine ⟨?_, of_decide_eq_true hread⟩
      unfold neighbours at hmem
      simp only at hmem
      split at hmem <;> rcases List.mem_pair.1 hmem with rfl | rfl <;> exact ⟨_, _, rfl⟩
    · exact ih h

section

variable {x : Float} (h : x.isFinite = true)

include h

theorem toFloat?_exact (hne : (Binary.ofFloat x).significand ≠ 0) :
    (exact (Binary.ofFloat x)).toFloat? (Binary.ofFloat x).negative = some x := by
  rw [toFloat?_of_value_eq (Binary.isDouble_ofFloat h) hne (value_exact _),
    Binary.toFloat?_ofFloat h]

theorem ofFloat_spec : (∃ k f, ofFloat x = reduced k f) ∧
    (ofFloat x).toFloat? (Binary.ofFloat x).negative = some x := by
  have hdouble := Binary.isDouble_ofFloat h
  by_cases hzero : (Binary.ofFloat x).significand = 0
  · have hparts : Binary.ofFloat x = ⟨(Binary.ofFloat x).negative, 0, -1074⟩ := by
      have hexponent : (Binary.ofFloat x).exponent = -1074 := by
        rcases hdouble.normalized with hmin | hfull
        · exact hmin
        · rw [hzero] at hfull
          exact absurd hfull (by norm_num)
      rw [← hzero, ← hexponent]
    have hread := Binary.toFloat?_ofFloat h
    simp only [ofFloat, if_pos hzero]
    refine ⟨⟨0, 0, (reduced_zero 0).symm⟩, ?_⟩
    rw [toFloat?_zero, ← hparts, hread]
  · simp only [ofFloat, if_neg hzero]
    -- Where no grid has a short decimal, the exact value is taken.
    cases hgrids : onGrids? x (Binary.ofFloat x).negative
        ((Binary.ofFloat x).significand <<< (Binary.ofFloat x).exponent.toNat)
        (1 <<< (-(Binary.ofFloat x).exponent).toNat) 20
        (((Binary.ofFloat x).significand.log2 + 1 + (Binary.ofFloat x).exponent) * 30103 / 100000 +
          1) with
    | some c => exact toFloat?_of_onGrids? hgrids
    | none =>
      refine ⟨?_, toFloat?_exact h hzero⟩
      rw [Option.getD_none, exact]
      split <;> exact ⟨_, _, rfl⟩

/-- The decimal of a double is read as the double. -/
theorem toFloat?_ofFloat : (ofFloat x).toFloat? (Binary.ofFloat x).negative = some x :=
  (ofFloat_spec h).2

theorem isReduced_ofFloat : (ofFloat x).IsReduced := by
  by_cases hzero : (Binary.ofFloat x).significand = 0
  · exact .inr (if_pos hzero)
  · obtain ⟨⟨k, f, hreduced⟩, hread⟩ := ofFloat_spec h
    refine .inl ?_
    rw [hreduced]
    refine reduced_mod_ne_zero ?_ f
    rintro rfl
    rw [hreduced, reduced_zero] at hread
    exact hzero (significand_of_toFloat?_zero hread)

end

end Chronomap.Decimal
