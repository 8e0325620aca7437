import Chronomap.Text.Digits

/-!
# Runs of digits

A run of digits is cut off a text by the first character that is no digit, and its value is made up
of the values of its parts:

    (ds ++ rest).takeWhile Char.isDigit = ds                        (Digits.takeWhile_append)
    value (ds ++ es) = value ds * 10 ^ es.length + value es         (Digits.value_append)

The numeral of a number has no leading zero (`Digits.head?_numeral_ne_zero`).
-/

namespace Chronomap.Digits

/-! ## Cutting -/

/-- A text does not go on with a digit. -/
def Stops (rest : List Char) : Prop := ∀ c, rest.head? = some c → c.isDigit = false

theorem stops_nil : Stops [] := by
  rintro c ⟨⟩

theorem stops_cons {c : Char} (h : c.isDigit = false) (rest : List Char) : Stops (c :: rest) := by
  rintro _ ⟨⟩
  exact h

section

variable {ds rest : List Char} (hds : ∀ c ∈ ds, c.isDigit = true) (hrest : Stops rest)

include hds hrest

theorem takeWhile_append : (ds ++ rest).takeWhile Char.isDigit = ds := by
  rw [List.takeWhile_append_of_pos hds]
  cases rest with
  | nil => rw [List.takeWhile_nil, List.append_nil]
  | cons c rest => rw [List.takeWhile_cons, if_neg (by simp [hrest c rfl]), List.append_nil]

theorem dropWhile_append : (ds ++ rest).dropWhile Char.isDigit = rest := by
  rw [List.dropWhile_append_of_pos hds]
  cases rest with
  | nil => rfl
  | cons c rest => rw [List.dropWhile_cons, if_neg (by simp [hrest c rfl])]

end

/-! ## Values -/

theorem value_append (ds es : List Char) :
    value (ds ++ es) = value ds * Nat.pow 10 es.length + value es := by
  have step : ∀ (es : List Char) (n : Nat),
      es.foldl (fun n c => 10 * n + (c.toNat - 48)) n = n * Nat.pow 10 es.length + value es := by
    intro es
    induction es with
    | nil =>
      intro n
      simp [value]
    | cons c es ih =>
      intro n
      have hpow : Nat.pow 10 (es.length + 1) = 10 * Nat.pow 10 es.length := Nat.mul_comm _ 10
      rw [value, List.foldl_cons, ih, List.foldl_cons, ih (10 * 0 + _), List.length_cons, hpow,
        Nat.mul_zero, Nat.zero_add, Nat.add_mul, Nat.add_assoc, Nat.mul_comm 10 n, Nat.mul_assoc]
  rw [value, List.foldl_append, step]
  rfl

theorem value_replicate_zero (k : Nat) : value (List.replicate k '0') = 0 := by
  induction k with
  | zero => rfl
  | succ k ih =>
    rw [List.replicate_succ', value_append, ih, Nat.zero_mul, Nat.zero_add]
    rfl

theorem value_lt (cs : List Char) (h : cs.all Char.isDigit = true) :
    value cs < Nat.pow 10 cs.length := by
  -- The number so far moves up by one place for each digit that is left.
  have step : ∀ n, cs.foldl (fun n c => 10 * n + (c.toNat - 48)) n <
      (n + 1) * Nat.pow 10 cs.length := by
    induction cs with
    | nil =>
      intro n
      simp
    | cons c cs ih =>
      intro n
      rw [List.all_cons, Bool.and_eq_true] at h
      have hc : c.toNat ≤ 57 := by
        have h57 := h.1
        rw [Char.isDigit, Bool.and_eq_true, decide_eq_true_eq, decide_eq_true_eq] at h57
        exact h57.2
      have hp : Nat.pow 10 (cs.length + 1) = 10 * Nat.pow 10 cs.length := Nat.mul_comm _ 10
      calc (c :: cs).foldl (fun n c => 10 * n + (c.toNat - 48)) n
          < (10 * n + (c.toNat - 48) + 1) * Nat.pow 10 cs.length := ih h.2 _
        _ ≤ ((n + 1) * 10) * Nat.pow 10 cs.length := Nat.mul_le_mul_right _ (by omega)
        _ = (n + 1) * Nat.pow 10 (c :: cs).length := by
          rw [Nat.mul_assoc, List.length_cons, hp]
  have h0 := step 0
  rwa [Nat.zero_add, Nat.one_mul] at h0

/-! ## Numerals -/

theorem numeral_ne_nil (n : Nat) : numeral n ≠ [] := by
  rw [numeral]
  split <;> simp

/-- A numeral other than that of zero does not start with a zero. -/
theorem head?_numeral_ne_zero {n : Nat} (h : n ≠ 0) : (numeral n).head? ≠ some '0' := by
  induction n using numeral.induct with
  | case1 n hn =>
    rw [numeral, if_pos hn]
    intro hzero
    have hdigit := congrArg Char.toNat (Option.some.inj hzero)
    rw [toNat_digit] at hdigit
    have hzero' : '0'.toNat = 48 := rfl
    omega
  | case2 n hn ih =>
    rw [numeral, if_neg hn, List.head?_append, List.head?_eq_some_head (numeral_ne_nil _),
      Option.some_or, ← List.head?_eq_some_head (numeral_ne_nil _)]
    exact ih (by omega)

theorem numeral_zero : numeral 0 = ['0'] := by
  rw [numeral, if_pos (by decide)]
  rfl

end Chronomap.Digits
