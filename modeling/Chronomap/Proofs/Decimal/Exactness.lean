import Chronomap.Decimal.Basic
import Chronomap.Proofs.Decimal.Doubles

/-!
# Exact decimals

A decimal whose value is that of a double is read as this double, without rounding:

    d.value = b.value → d.toFloat? b.negative = b.toFloat?      (Decimal.toFloat?_of_value_eq)

Values are magnitudes, as rational numbers; signs are kept apart.
-/

namespace Chronomap

/-! ## Powers -/

/-- A power with an integer exponent as the quotient of two powers, one of which is 1. -/
theorem zpow_eq_div (a : ℚ) (e : ℤ) : a ^ e = a ^ e.toNat / a ^ (-e).toNat := by
  rcases le_total 0 e with h | h
  · obtain ⟨n, rfl⟩ := Int.eq_ofNat_of_zero_le h
    simp
  · obtain ⟨n, hn⟩ := Int.eq_ofNat_of_zero_le (neg_nonneg.2 h)
    obtain rfl : e = -n := by omega
    simp

theorem two_zpow_pos (e : ℤ) : (0 : ℚ) < 2 ^ e := zpow_pos (by norm_num) e

/-- Ten lies above the third power of two. -/
theorem two_zpow_le_ten_zpow {e : ℤ} (h : 0 ≤ e) : (2 : ℚ) ^ (3 * e) ≤ 10 ^ e := by
  rw [zpow_mul]
  exact zpow_le_zpow_left₀ h (by norm_num) (by norm_num)

theorem ten_zpow_le_two_zpow {e : ℤ} (h : e ≤ 0) : (10 : ℚ) ^ e ≤ 2 ^ (3 * e) := by
  have hinv := two_zpow_le_ten_zpow (neg_nonneg.2 h)
  rw [mul_neg, zpow_neg, zpow_neg] at hinv
  exact (inv_le_inv₀ (two_zpow_pos _) (zpow_pos (by norm_num) _)).1 hinv

/-! ## Rounding a quotient -/

theorem powerOfTwoLe_iff {n d : ℕ} (hd : 0 < d) (e : ℤ) :
    powerOfTwoLe n d e = true ↔ (2 : ℚ) ^ e ≤ n / d := by
  have hd' : (0 : ℚ) < d := by exact_mod_cast hd
  rw [powerOfTwoLe, decide_eq_true_iff, Nat.shiftLeft_eq, Nat.shiftLeft_eq,
    zpow_eq_div, div_le_div_iff₀ (by positivity) hd', mul_comm d]
  exact_mod_cast Iff.rfl

/-- The exponent of a quotient between two powers of two. -/
theorem logTwo_spec {n d : ℕ} (hn : 0 < n) (hd : 0 < d) :
    (2 : ℚ) ^ logTwo n d ≤ n / d ∧ (n : ℚ) / d < 2 ^ (logTwo n d + 1) := by
  have hd' : (0 : ℚ) < d := by exact_mod_cast hd
  have hnlow : (2 : ℚ) ^ n.log2 ≤ n := by exact_mod_cast Nat.log2_self_le hn.ne'
  have hnhigh : (n : ℚ) < 2 ^ (n.log2 + 1) := by exact_mod_cast Nat.lt_log2_self
  have hdlow : (2 : ℚ) ^ d.log2 ≤ d := by exact_mod_cast Nat.log2_self_le hd.ne'
  have hdhigh : (d : ℚ) < 2 ^ (d.log2 + 1) := by exact_mod_cast Nat.lt_log2_self
  -- The two bit lengths leave a range of two binades.
  have hlow : (2 : ℚ) ^ ((n.log2 : ℤ) - d.log2 - 1) ≤ n / d := by
    rw [le_div_iff₀ hd']
    calc (2 : ℚ) ^ ((n.log2 : ℤ) - d.log2 - 1) * d
        ≤ 2 ^ ((n.log2 : ℤ) - d.log2 - 1) * 2 ^ (d.log2 + 1) := by gcongr
      _ = 2 ^ n.log2 := by
        rw [← zpow_natCast, ← zpow_natCast, ← zpow_add₀ two_ne_zero]
        congr 1
        push_cast
        ring
      _ ≤ n := hnlow
  have hhigh : (n : ℚ) / d < 2 ^ ((n.log2 : ℤ) - d.log2 + 1) := by
    rw [div_lt_iff₀ hd']
    calc (n : ℚ) < 2 ^ (n.log2 + 1) := hnhigh
      _ = 2 ^ ((n.log2 : ℤ) - d.log2 + 1) * 2 ^ d.log2 := by
        rw [← zpow_natCast, ← zpow_natCast, ← zpow_add₀ two_ne_zero]
        congr 1
        push_cast
        ring
      _ ≤ 2 ^ ((n.log2 : ℤ) - d.log2 + 1) * d := by gcongr
  unfold logTwo
  simp only
  split
  · next h => exact ⟨(powerOfTwoLe_iff hd _).1 h, hhigh⟩
  · next h =>
    rw [powerOfTwoLe_iff hd, not_le] at h
    rw [sub_add_cancel]
    exact ⟨hlow, h⟩

/-- A whole quotient is not rounded. -/
theorem roundQuotient_mul {m d : ℕ} (hd : 0 < d) : roundQuotient (m * d) d = m := by
  unfold roundQuotient
  simp only [Nat.mul_div_cancel m hd, Nat.mul_mod_left]
  rw [if_neg]
  omega

namespace Binary

/-- The magnitude of a double. -/
def value (b : Binary) : ℚ := b.significand * 2 ^ b.exponent

/-- The nearest double of a value that is a double is this double. -/
theorem nearest_of_value_eq {b : Binary} (hb : b.IsDouble) (hne : b.significand ≠ 0) {n d : ℕ}
    (hd : 0 < d) (h : (n : ℚ) / d = b.value) : nearest b.negative n d = b := by
  obtain ⟨negative, m, k⟩ := b
  obtain ⟨hm, ⟨hk, -⟩, hnormal⟩ := hb
  dsimp only [value] at *
  have hd' : (d : ℚ) ≠ 0 := by exact_mod_cast hd.ne'
  have hmpos : 0 < m := Nat.pos_of_ne_zero hne
  have hn : 0 < n := by
    rw [Nat.pos_iff_ne_zero]
    rintro rfl
    rw [Nat.cast_zero, zero_div] at h
    have hvalue : (0 : ℚ) < m * 2 ^ k := by positivity
    rw [← h] at hvalue
    exact lt_irrefl _ hvalue
  have hmhigh : (m : ℚ) * 2 ^ k < 2 ^ (53 + k) := by
    rw [zpow_add₀ two_ne_zero]
    have : (m : ℚ) < 2 ^ (53 : ℤ) := by exact_mod_cast hm
    gcongr
  obtain ⟨hlow, hhigh⟩ := logTwo_spec hn hd
  rw [h] at hlow hhigh
  -- The significand has 53 bits, or fewer on the lowest grid: the logarithm gives the exponent.
  have hlogle : logTwo n d < 53 + k :=
    (zpow_lt_zpow_iff_right₀ (by norm_num : (1 : ℚ) < 2)).1 (lt_of_le_of_lt hlow hmhigh)
  have hexponent : max (-1074) (logTwo n d - 52) = k := by
    rcases hnormal with hmin | hfull
    · omega
    · have hmlow : (2 : ℚ) ^ (52 + k) ≤ m * 2 ^ k := by
        rw [zpow_add₀ two_ne_zero]
        have : (2 : ℚ) ^ (52 : ℤ) ≤ m := by exact_mod_cast hfull
        gcongr
      have hloglow : 52 + k < logTwo n d + 1 :=
        (zpow_lt_zpow_iff_right₀ (by norm_num : (1 : ℚ) < 2)).1 (lt_of_le_of_lt hmlow hhigh)
      omega
  -- On the grid of this exponent nothing is left to be rounded.
  have hquotient : n <<< (-k).toNat = m * d <<< k.toNat := by
    rw [Nat.shiftLeft_eq, Nat.shiftLeft_eq]
    rw [zpow_eq_div, mul_div_assoc', div_eq_div_iff hd' (by positivity)] at h
    have hnat : n * 2 ^ (-k).toNat = m * 2 ^ k.toNat * d := by exact_mod_cast h
    rw [hnat, mul_assoc, mul_comm (2 ^ k.toNat)]
  have hdpos : 0 < d <<< k.toNat := by
    rw [Nat.shiftLeft_eq]
    positivity
  unfold nearest
  simp only [hexponent, hquotient, roundQuotient_mul hdpos]

end Binary

namespace Decimal

/-- The magnitude of a decimal. -/
def value (d : Decimal) : ℚ := d.coefficient * 10 ^ d.exponent

theorem value_reduced (c : ℕ) (e : ℤ) : (reduced c e).value = c * 10 ^ e := by
  induction c, e using reduced.induct with
  | case1 c e h ih =>
    rw [reduced, dif_pos h, ih, zpow_add₀ (by norm_num)]
    have hten : ((c / 10 : ℕ) : ℚ) * 10 = c := by
      exact_mod_cast Nat.div_mul_cancel (Nat.dvd_of_mod_eq_zero h.2)
    rw [← hten]
    ring
  | case2 c e h => rw [reduced, dif_neg h, value]

/-- The decimal that equals a double does. -/
theorem value_exact (b : Binary) : (exact b).value = b.value := by
  unfold exact Binary.value
  split
  · next h =>
    obtain ⟨n, hn⟩ := Int.eq_ofNat_of_zero_le h
    rw [value_reduced, hn, Nat.shiftLeft_eq]
    simp
  · next h =>
    obtain ⟨n, hn⟩ := Int.eq_ofNat_of_zero_le (by omega : 0 ≤ -b.exponent)
    obtain hexp : b.exponent = -n := by omega
    rw [value_reduced, hexp]
    simp only [neg_neg, Int.toNat_natCast, Nat.cast_mul, zpow_neg, zpow_natCast]
    have hpow : ((Nat.pow 5 n : ℕ) : ℚ) = 5 ^ n := by exact_mod_cast rfl
    have hten : (10 : ℚ) ^ n = 5 ^ n * 2 ^ n := by rw [← mul_pow]; norm_num
    rw [hpow, hten]
    field_simp

section

variable {b : Binary} (hb : b.IsDouble) (hne : b.significand ≠ 0)

include hb hne

theorem two_zpow_le_value : (2 : ℚ) ^ (-1074 : ℤ) ≤ b.value := by
  have hone : (1 : ℚ) ≤ b.significand := by exact_mod_cast Nat.one_le_iff_ne_zero.2 hne
  calc (2 : ℚ) ^ (-1074 : ℤ)
      ≤ 2 ^ b.exponent := zpow_le_zpow_right₀ (by norm_num) hb.exponent_mem.1
    _ ≤ b.significand * 2 ^ b.exponent := le_mul_of_one_le_left (two_zpow_pos _).le hone

omit hne

theorem value_lt_two_zpow : b.value < 2 ^ (1024 : ℤ) := by
  have hm : (b.significand : ℚ) < 2 ^ (53 : ℤ) := by exact_mod_cast hb.significand_lt
  calc b.value
      < 2 ^ (53 : ℤ) * 2 ^ b.exponent := mul_lt_mul_of_pos_right hm (two_zpow_pos _)
    _ = 2 ^ (53 + b.exponent) := (zpow_add₀ two_ne_zero _ _).symm
    _ ≤ 2 ^ (1024 : ℤ) := by
      have := hb.exponent_mem.2
      exact zpow_le_zpow_right₀ (by norm_num) (by omega)

end

/-- A decimal above 10 ^ 400 is no double. -/
theorem exponent_le {b : Binary} (hb : b.IsDouble) {d : Decimal} (hc : d.coefficient ≠ 0)
    (h : d.value = b.value) : d.exponent ≤ 400 := by
  by_contra! hlt
  have hone : (1 : ℚ) ≤ d.coefficient := by exact_mod_cast Nat.one_le_iff_ne_zero.2 hc
  have hge : (2 : ℚ) ^ (3 * d.exponent) ≤ d.value :=
    calc (2 : ℚ) ^ (3 * d.exponent) ≤ 10 ^ d.exponent := two_zpow_le_ten_zpow (by omega)
      _ ≤ d.coefficient * 10 ^ d.exponent :=
        le_mul_of_one_le_left (zpow_pos (by norm_num) _).le hone
  rw [h] at hge
  have hpow := (zpow_lt_zpow_iff_right₀ (by norm_num : (1 : ℚ) < 2)).1
    (lt_of_le_of_lt hge (value_lt_two_zpow hb))
  omega

/-- A decimal below 2 ^ (−1100) is no double other than zero. -/
theorem le_log2_add {b : Binary} (hb : b.IsDouble) (hne : b.significand ≠ 0) {d : Decimal}
    (h : d.value = b.value) : -1100 ≤ (d.coefficient.log2 : ℤ) + 1 + 3 * d.exponent := by
  by_contra! hlt
  have hc : (d.coefficient : ℚ) < 2 ^ ((d.coefficient.log2 : ℤ) + 1) := by
    exact_mod_cast Nat.lt_log2_self
  have hlow := two_zpow_le_value hb hne
  rw [← h] at hlow
  have hhigh : d.value < 2 ^ ((d.coefficient.log2 : ℤ) + 1 + 3 * d.exponent) :=
    calc d.value
        < 2 ^ ((d.coefficient.log2 : ℤ) + 1) * 10 ^ d.exponent :=
          mul_lt_mul_of_pos_right hc (zpow_pos (by norm_num) _)
      _ ≤ 2 ^ ((d.coefficient.log2 : ℤ) + 1) * 2 ^ (3 * d.exponent) :=
        mul_le_mul_of_nonneg_left (ten_zpow_le_two_zpow (by omega)) (two_zpow_pos _).le
      _ = 2 ^ ((d.coefficient.log2 : ℤ) + 1 + 3 * d.exponent) :=
        (zpow_add₀ two_ne_zero _ _).symm
  have hpow := (zpow_lt_zpow_iff_right₀ (by norm_num : (1 : ℚ) < 2)).1
    (lt_of_le_of_lt hlow hhigh)
  omega

/-- A decimal whose value is that of a double is read as this double. -/
theorem toFloat?_of_value_eq {b : Binary} (hb : b.IsDouble) (hne : b.significand ≠ 0)
    {d : Decimal} (h : d.value = b.value) : d.toFloat? b.negative = b.toFloat? := by
  have hc : d.coefficient ≠ 0 := by
    intro hzero
    have hlow := two_zpow_le_value hb hne
    rw [← h, value, hzero, Nat.cast_zero, zero_mul] at hlow
    exact absurd hlow (not_le.2 (two_zpow_pos _))
  have hlarge := exponent_le hb hc h
  have hsmall := le_log2_add hb hne h
  have hquotient : ((d.coefficient * Nat.pow 10 d.exponent.toNat : ℕ) : ℚ) /
      (Nat.pow 10 (-d.exponent).toNat : ℕ) = b.value := by
    rw [← h, value, zpow_eq_div]
    simp only [Nat.pow_eq]
    push_cast
    rw [mul_div_assoc]
  have hpos : 0 < Nat.pow 10 (-d.exponent).toNat := Nat.pow_pos (by decide)
  -- The shortcuts for huge and tiny decimals are for values that no double has.
  unfold toFloat?
  rw [if_neg hc, if_neg (by omega), if_neg (by omega),
    Binary.nearest_of_value_eq hb hne hpos hquotient]

end Decimal

end Chronomap
