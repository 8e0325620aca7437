/-!
# Hexadecimal digits

One more digit makes sixteen times the number, and its own value:

    value? cs = some m → n < 16 → value? (cs ++ [digit n]) = some (16 * m + n)
                                                                  (Hexadecimal.value?_append_digit)
-/

namespace Chronomap.Hexadecimal

/-- The digit of a number below sixteen, in lower case. -/
def digit (n : Nat) : Char := "0123456789abcdef".toList.getD n '0'

def digitValue? (c : Char) : Option Nat :=
  if '0' ≤ c ∧ c ≤ '9' then some (c.toNat - 48)
  else if 'a' ≤ c ∧ c ≤ 'f' then some (c.toNat - 87)
  else if 'A' ≤ c ∧ c ≤ 'F' then some (c.toNat - 55)
  else none

/-- Whether a character is a digit, in lower or upper case. -/
def isDigit (c : Char) : Bool := (digitValue? c).isSome

def value? (cs : List Char) : Option Nat :=
  cs.foldlM (fun n c => (digitValue? c).map (16 * n + ·)) 0

theorem digitValue?_digit {n : Nat} (h : n < 16) : digitValue? (digit n) = some n := by
  have all : ∀ k, k < 16 → digitValue? (digit k) = some k := by decide
  exact all n h

theorem value?_append_digit {cs : List Char} {m n : Nat} (hcs : value? cs = some m)
    (hn : n < 16) : value? (cs ++ [digit n]) = some (16 * m + n) := by
  rw [value?] at hcs
  rw [value?, List.foldlM_append, hcs]
  simp [digitValue?_digit hn]

end Chronomap.Hexadecimal
