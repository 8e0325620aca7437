import Chronomap.Json.Quoted

/-!
# Strings are read back

What is written between quotes is read as the string, and reading stops at the closing quote:

    contents? (s.toList.flatMap escaped ++ '"' :: rest) = some (s.toList, rest)
                                                                         (contents?_escaped_quote)

Every character has one escape or stands for itself, so this is one step for each of them
(`contents?_escaped`).
-/

namespace Chronomap.Json

theorem hexadecimal_value?_of_lt {n : Nat} (h : n < 32) :
    Hexadecimal.value? ['0', '0', Hexadecimal.digit (n / 16), Hexadecimal.digit (n % 16)] =
      some n := by
  have hzeros : Hexadecimal.value? ['0', '0'] = some 0 := rfl
  have hfirst := Hexadecimal.value?_append_digit hzeros (n := n / 16) (by omega)
  have hsecond := Hexadecimal.value?_append_digit hfirst (n := n % 16) (by omega)
  have hn : 16 * (16 * 0 + n / 16) + n % 16 = n := by omega
  rw [hn] at hsecond
  exact hsecond

/-- A control character without an escape of its own is written by its number. -/
theorem contents?_numbered {c : Char} (h : c.toNat < 32) (rest : List Char) :
    contents? ('\\' :: 'u' :: '0' :: '0' :: Hexadecimal.digit (c.toNat / 16) ::
        Hexadecimal.digit (c.toNat % 16) :: rest) =
      (contents? rest).map fun p => (c :: p.1, p.2) := by
  have hhigh : ¬ isHighSurrogate c.toNat = true := by
    simp only [isHighSurrogate, Bool.and_eq_true, decide_eq_true_eq]
    omega
  have hlow : ¬ isLowSurrogate c.toNat = true := by
    simp only [isLowSurrogate, Bool.and_eq_true, decide_eq_true_eq]
    omega
  rw [contents?]
  simp only [hexadecimal_value?_of_lt h, if_neg hhigh, if_neg hlow, Char.ofNat_toNat]

/-- A written character is read as this character. -/
theorem contents?_escaped (c : Char) (rest : List Char) :
    contents? (escaped c ++ rest) = (contents? rest).map fun p => (c :: p.1, p.2) := by
  unfold escaped
  split
  case h_8 hquote hbackslash _ _ _ _ _ =>
    split
    · next hcontrol => exact contents?_numbered hcontrol rest
    · next hplain =>
      rw [List.cons_append, List.nil_append, contents?]
      · rw [if_neg hplain]
      · exact hquote
      · exact fun _ _ _ _ _ hc => absurd hc hbackslash
      · exact fun _ _ hc => absurd hc hbackslash
  all_goals rfl

theorem contents?_escaped_quote (cs rest : List Char) :
    contents? (cs.flatMap escaped ++ '"' :: rest) = some (cs, rest) := by
  induction cs with
  | nil => rfl
  | cons c cs ih =>
    rw [List.flatMap_cons, List.append_assoc, contents?_escaped, ih, Option.map_some]

end Chronomap.Json
