import Mathlib
import Chronomap.Decimal.Binary

/-!
# The parts of a double

Every finite double is put together again from the parts that it is taken apart into:

    x.isFinite → (Binary.ofFloat x).toFloat? = some x      (Binary.toFloat?_ofFloat)

and its parts are those of a double: at most 53 bits, all of them unless the exponent is the
smallest one (`Binary.isDouble_ofFloat`).
-/

namespace Chronomap.Binary

/-- Parts that a finite double can have. -/
structure IsDouble (b : Binary) : Prop where
  significand_lt : b.significand < 2 ^ 53
  exponent_mem : -1074 ≤ b.exponent ∧ b.exponent ≤ 971
  normalized : b.exponent = -1074 ∨ 2 ^ 52 ≤ b.significand

theorem leadingBit_eq : leadingBit = 4503599627370496 := rfl

/-! ## Fields -/

/-- The eleven bits after the sign. -/
def exponentField (x : Float) : Nat := x.toBits.toNat / leadingBit % 2048

/-- The last 52 bits. -/
def fractionField (x : Float) : Nat := x.toBits.toNat % leadingBit

theorem ofBits_toBits (x : Float) : Float.ofBits x.toBits = x := by
  obtain ⟨⟨bits, valid⟩⟩ := x
  have hpack := Float.Model.UnpackedFloat.pack_unpack_of_valid valid
  simp only [Float.ofBits, Float.toBits, Float.Model.ofBits, Float.Model.pack, hpack]

/-- Only infinities and what is no number have an exponent field full of ones. -/
theorem exponentField_lt {x : Float} (h : x.isFinite = true) : exponentField x < 2047 := by
  let bits : BitVec Float.Model.Format.binary64.numBits := x.toBits.toBitVec
  have hfield : (Float.Model.UnpackedFloat.unpackExponent bits).toNat = exponentField x := by
    rw [Float.Model.UnpackedFloat.unpackExponent_def, BitVec.extractLsb'_toNat,
      Nat.shiftRight_eq_div_pow]
    rfl
  have hlt : exponentField x < 2048 := Nat.mod_lt _ (by decide)
  by_contra hge
  -- A field of ones is that of an infinity or of NaN.
  have hones : Float.Model.UnpackedFloat.unpackExponent bits =
      -1#(Float.Model.Format.binary64.exponentBits) := by
    apply BitVec.eq_of_toNat_eq
    rw [hfield]
    show exponentField x = 2047
    omega
  have hnot : x.isFinite = false := by
    show (Float.Model.UnpackedFloat.unpack _ bits).isFinite = false
    unfold Float.Model.UnpackedFloat.unpack
    simp only [hones, if_true]
    split <;> rfl
  rw [hnot] at h
  cases h

theorem fractionField_lt (x : Float) : fractionField x < leadingBit :=
  Nat.mod_lt _ (by decide)

/-- The fields next to each other are the bits of a double. -/
theorem bits_eq (x : Float) :
    (if (ofFloat x).negative then 1 <<< 63 else 0) +
      (exponentField x * leadingBit + fractionField x) = x.toBits.toNat := by
  have hbits := x.toBits.toNat_lt
  have hsign : x.toBits.toNat >>> 63 = x.toBits.toNat / 9223372036854775808 := by
    rw [Nat.shiftRight_eq_div_pow]
  simp only [ofFloat, exponentField, fractionField, leadingBit_eq, hsign, beq_iff_eq]
  split <;> omega

theorem ofFloat_of_exponentField_eq_zero {x : Float} (h : exponentField x = 0) :
    (ofFloat x).significand = fractionField x ∧ (ofFloat x).exponent = -1074 :=
  ⟨if_pos h, if_pos h⟩

theorem ofFloat_of_exponentField_ne_zero {x : Float} (h : exponentField x ≠ 0) :
    (ofFloat x).significand = leadingBit + fractionField x ∧
      (ofFloat x).exponent = exponentField x - 1075 :=
  ⟨if_neg h, if_neg h⟩

/-! ## Parts -/

section

variable {x : Float} (h : x.isFinite = true)

include h

theorem isDouble_ofFloat : (ofFloat x).IsDouble := by
  have hexponent := exponentField_lt h
  have hfraction := fractionField_lt x
  rw [leadingBit_eq] at hfraction
  by_cases hzero : exponentField x = 0
  · obtain ⟨hs, he⟩ := ofFloat_of_exponentField_eq_zero hzero
    exact ⟨by omega, by omega, by omega⟩
  · obtain ⟨hs, he⟩ := ofFloat_of_exponentField_ne_zero hzero
    rw [leadingBit_eq] at hs
    exact ⟨by omega, by omega, by omega⟩

theorem toFloat?_ofFloat : (ofFloat x).toFloat? = some x := by
  have hexponent := exponentField_lt h
  have hfraction := fractionField_lt x
  have hmagnitude : ((ofFloat x).exponent + 1074).toNat * leadingBit + (ofFloat x).significand =
      exponentField x * leadingBit + fractionField x := by
    rw [leadingBit_eq]
    by_cases hzero : exponentField x = 0
    · obtain ⟨hs, he⟩ := ofFloat_of_exponentField_eq_zero hzero
      omega
    · obtain ⟨hs, he⟩ := ofFloat_of_exponentField_ne_zero hzero
      rw [leadingBit_eq] at hs
      omega
  unfold toFloat?
  simp only [hmagnitude, bits_eq]
  rw [if_pos, UInt64.ofNat_toNat, ofBits_toBits]
  rw [leadingBit_eq] at hfraction ⊢
  omega

end

end Chronomap.Binary
