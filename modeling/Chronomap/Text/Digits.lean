/-!
# Decimal digits

Natural numbers as runs of the ASCII digits: in a field of fixed width, or as a numeral
without leading zeros.

    value (field w n) = n % 10 ^ w      (Digits.value_field)
    value (numeral n) = n               (Digits.value_numeral)
-/

namespace Chronomap.Digits

/-! ## Algorithm -/

/-- The digit of a number below ten; larger numbers give their last digit. -/
def digit (n : Nat) : Char := Char.ofNat (48 + n % 10)

/-- The number that a run of digits stands for. -/
def value (cs : List Char) : Nat := cs.foldl (fun n c => 10 * n + (c.toNat - 48)) 0

/-- The last `width` digits of `n`, with leading zeros. -/
def field : (width n : Nat) → List Char
  | 0, _ => []
  | width + 1, n => field width (n / 10) ++ [digit n]

/-- The digits of `n` without leading zeros. -/
def numeral (n : Nat) : List Char :=
  if n < 10 then [digit n] else numeral (n / 10) ++ [digit n]

/-- The digits of `n`, at least `width` of them. -/
def padded (width n : Nat) : List Char :=
  if n < Nat.pow 10 width then field width n else numeral n

/-! ## Lemmas -/

theorem toNat_digit (n : Nat) : (digit n).toNat = 48 + n % 10 := by
  have h : ∀ k, k < 10 → (Char.ofNat (48 + k)).toNat = 48 + k := by decide
  exact h (n % 10) (Nat.mod_lt n (by decide))

theorem isDigit_digit (n : Nat) : (digit n).isDigit = true := by
  have h : ∀ k, k < 10 → (Char.ofNat (48 + k)).isDigit = true := by decide
  exact h (n % 10) (Nat.mod_lt n (by decide))

theorem value_append_digit (cs : List Char) (n : Nat) :
    value (cs ++ [digit n]) = 10 * value cs + n % 10 := by
  simp [value, toNat_digit]

theorem length_field (width n : Nat) : (field width n).length = width := by
  induction width generalizing n with
  | zero => rfl
  | succ width ih => simp [field, ih]

theorem isDigit_of_mem_field {width n : Nat} {c : Char} (h : c ∈ field width n) :
    c.isDigit = true := by
  induction width generalizing n with
  | zero => simp [field] at h
  | succ width ih =>
    rcases List.mem_append.1 h with h | h
    · exact ih h
    · rw [List.mem_singleton.1 h]
      exact isDigit_digit n

theorem value_field (width n : Nat) : value (field width n) = n % Nat.pow 10 width := by
  induction width generalizing n with
  | zero => simp [field, value, Nat.mod_one]
  | succ width ih =>
    have h : Nat.pow 10 (width + 1) = 10 * Nat.pow 10 width := Nat.mul_comm _ 10
    rw [field, value_append_digit, ih, h, Nat.mod_mul]
    omega

theorem isDigit_of_mem_numeral {n : Nat} {c : Char} (h : c ∈ numeral n) : c.isDigit = true := by
  induction n using numeral.induct with
  | case1 n hn =>
    rw [numeral, if_pos hn, List.mem_singleton] at h
    rw [h]
    exact isDigit_digit n
  | case2 n hn ih =>
    rw [numeral, if_neg hn] at h
    rcases List.mem_append.1 h with h | h
    · exact ih h
    · rw [List.mem_singleton.1 h]
      exact isDigit_digit n

theorem value_numeral (n : Nat) : value (numeral n) = n := by
  induction n using numeral.induct with
  | case1 n hn =>
    have h := value_append_digit [] n
    rw [numeral, if_pos hn]
    simp only [List.nil_append] at h
    rw [h]
    simp only [value, List.foldl_nil]
    omega
  | case2 n hn ih =>
    rw [numeral, if_neg hn, value_append_digit, ih]
    omega

end Chronomap.Digits
