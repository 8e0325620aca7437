import Chronomap.Json.Parser
import Chronomap.Json.Printer
import Chronomap.Proofs.Decimal.Shortest
import Chronomap.Proofs.Text.Digits

/-!
# Numbers are read back

A number is read from its own text, whatever follows that is no part of a number:

    EndsNumber rest → number? (n.chars ++ rest) = some (n, rest)      (number?_chars)

An integer is written in full.  The text of a double, in positional or in scientific notation,
spells the decimal of the double, up to zeros behind its coefficient (`spells_chars`).
-/

namespace Chronomap.Json

/-! ## Grammar -/

/-- A text does not go on with a character that may belong to a number. -/
def EndsNumber (rest : List Char) : Prop :=
  ∀ c, rest.head? = some c → c.isDigit = false ∧ c ≠ '.' ∧ c ≠ 'e' ∧ c ≠ 'E'

theorem endsNumber_nil : EndsNumber [] := by
  rintro c ⟨⟩

theorem EndsNumber.stops {rest : List Char} (h : EndsNumber rest) : Digits.Stops rest :=
  fun c hc => (h c hc).1

/-- The digits before the point of a number: at least one, and no needless zero in front. -/
structure IsWhole (ds : List Char) : Prop where
  digits : ∀ c ∈ ds, c.isDigit = true
  ne_nil : ds ≠ []
  no_zero : ds.head? = some '0' → ds.length = 1

theorem isWhole_numeral (n : Nat) : IsWhole (Digits.numeral n) where
  digits _ := Digits.isDigit_of_mem_numeral
  ne_nil := Digits.numeral_ne_nil n
  no_zero h := by
    by_cases hn : n = 0
    · rw [hn, Digits.numeral_zero]
      rfl
    · exact absurd h (Digits.head?_numeral_ne_zero hn)

section

variable {ds ps rest cs : List Char}

theorem fraction?_of_ends (h : EndsNumber rest) : fraction? rest = some ([], rest) := by
  unfold fraction?
  split
  · exact absurd rfl (h '.' rfl).2.1
  · rfl

theorem fraction?_point (hps : ∀ c ∈ ps, c.isDigit = true) (hne : ps ≠ [])
    (hrest : Digits.Stops rest) : fraction? ('.' :: (ps ++ rest)) = some (ps, rest) := by
  rw [fraction?, Digits.takeWhile_append hps hrest, Digits.dropWhile_append hps hrest, if_neg hne]

/-- There is a point only if there are digits behind it. -/
theorem fraction?_optional (hps : ∀ c ∈ ps, c.isDigit = true) (cs : List Char) :
    Digits.Stops ((if ps = [] then [] else '.' :: ps) ++ 'e' :: cs) ∧
      fraction? ((if ps = [] then [] else '.' :: ps) ++ 'e' :: cs) = some (ps, 'e' :: cs) := by
  split
  · next hnil =>
    rw [hnil]
    exact ⟨Digits.stops_cons rfl _, rfl⟩
  · next hne =>
    exact ⟨Digits.stops_cons rfl _, fraction?_point hps hne (Digits.stops_cons rfl _)⟩

theorem exponent?_of_ends (h : EndsNumber rest) : exponent? rest = some (none, rest) := by
  cases rest with
  | nil => rfl
  | cons c rest =>
    obtain ⟨-, -, he, hE⟩ := h c rfl
    simp [exponent?, he, hE]

theorem exponent?_signed (z : ℤ) (hrest : Digits.Stops rest) :
    exponent? ('e' :: (if z < 0 then '-' else '+') :: (Digits.numeral z.natAbs ++ rest)) =
      some (some z, rest) := by
  have hall : ∀ c ∈ Digits.numeral z.natAbs, c.isDigit = true :=
    fun _ => Digits.isDigit_of_mem_numeral
  have hdigits : ∀ sign, exponentDigits? sign (Digits.numeral z.natAbs ++ rest) =
      some (some (sign * z.natAbs), rest) := by
    intro sign
    rw [exponentDigits?, Digits.takeWhile_append hall hrest, Digits.dropWhile_append hall hrest,
      if_neg (Digits.numeral_ne_nil _), Digits.value_numeral]
  by_cases hz : z < 0
  · rw [if_pos hz]
    refine (hdigits (-1)).trans ?_
    rw [show -1 * (z.natAbs : ℤ) = z by omega]
  · rw [if_neg hz]
    refine (hdigits 1).trans ?_
    rw [show 1 * (z.natAbs : ℤ) = z by omega]

/-- A number is made of its digits, its places and its exponent. -/
theorem unsigned?_eq (negative : Bool) {cs' cs'' : List Char} {e : Option Int} (hds : IsWhole ds)
    (hcs : Digits.Stops cs) (hplaces : fraction? cs = some (ps, cs'))
    (hexponent : exponent? cs' = some (e, cs'')) :
    unsigned? negative (ds ++ cs) =
      if ps = [] ∧ e = none then (integer? negative (Digits.value ds)).map (·, cs'')
      else (double? negative ⟨Digits.value (ds ++ ps), e.getD 0 - ps.length⟩).map (·, cs'') := by
  have hstart : ¬ (ds = [] ∨ ds.head? = some '0' ∧ ds.length ≠ 1) := by
    rintro (hnil | ⟨hzero, hlength⟩)
    · exact hds.ne_nil hnil
    · exact hlength (hds.no_zero hzero)
  unfold unsigned?
  simp only [Digits.takeWhile_append hds.digits hcs, Digits.dropWhile_append hds.digits hcs,
    if_neg hstart, hplaces, hexponent, Option.bind_some]

theorem unsigned?_integer (negative : Bool) (hds : IsWhole ds) (h : EndsNumber rest) :
    unsigned? negative (ds ++ rest) = (integer? negative (Digits.value ds)).map (·, rest) := by
  rw [unsigned?_eq negative hds h.stops (fraction?_of_ends h) (exponent?_of_ends h),
    if_pos ⟨rfl, rfl⟩]

end

/-! ## Notation -/

/-- A text that is read as a decimal, up to zeros behind the coefficient. -/
def Spells (text : List Char) (d : Decimal) : Prop :=
  ∀ negative rest, EndsNumber rest → ∃ k : ℕ, unsigned? negative (text ++ rest) =
    (double? negative ⟨d.coefficient * 10 ^ k, d.exponent - k⟩).map (·, rest)

section

variable {d : Decimal}

/-- Zeros behind a numeral other than that of zero leave it without a leading zero. -/
theorem isWhole_numeral_zeros {n k : ℕ} (h : n ≠ 0 ∨ k = 0) :
    IsWhole (Digits.numeral n ++ List.replicate k '0') := by
  rcases h with hn | rfl
  · refine ⟨?_, ?_, ?_⟩
    · intro c hc
      rcases List.mem_append.1 hc with hc | hc
      · exact Digits.isDigit_of_mem_numeral hc
      · rw [List.eq_of_mem_replicate hc]
        rfl
    · simp [Digits.numeral_ne_nil]
    · intro hzero
      rw [List.head?_append, List.head?_eq_some_head (Digits.numeral_ne_nil n), Option.some_or,
        ← List.head?_eq_some_head (Digits.numeral_ne_nil n)] at hzero
      exact absurd hzero (Digits.head?_numeral_ne_zero hn)
  · rw [List.replicate_zero, List.append_nil]
    exact isWhole_numeral n

/-- The first digits of a numeral other than that of zero. -/
theorem isWhole_take_numeral {n k : ℕ} (hn : n ≠ 0) (hk : 0 < k) :
    IsWhole ((Digits.numeral n).take k) := by
  refine ⟨fun c hc => Digits.isDigit_of_mem_numeral (List.mem_of_mem_take hc), ?_, ?_⟩
  · intro hnil
    rcases List.take_eq_nil_iff.1 hnil with hzero | hempty
    · omega
    · exact Digits.numeral_ne_nil n hempty
  · intro hzero
    rw [List.head?_take, if_neg (by omega)] at hzero
    exact absurd hzero (Digits.head?_numeral_ne_zero hn)

/-- Digits around a point spell the number that they are without it. -/
theorem spells_point {ds ps : List Char} {k : ℕ} (hds : IsWhole ds)
    (hps : ∀ c ∈ ps, c.isDigit = true) (hne : ps ≠ [])
    (hvalue : Digits.value (ds ++ ps) = d.coefficient * 10 ^ k)
    (hexponent : -(ps.length : ℤ) = d.exponent - k) : Spells (ds ++ '.' :: ps) d := by
  intro negative rest h
  refine ⟨k, ?_⟩
  rw [List.append_assoc, List.cons_append,
    unsigned?_eq negative hds (Digits.stops_cons rfl _) (fraction?_point hps hne h.stops)
      (exponent?_of_ends h), if_neg (fun hnone => hne hnone.1), Option.getD_none, zero_sub, hvalue,
    hexponent]

/-- A whole number is written with the zeros of its exponent, and one more behind the point. -/
theorem spells_whole (h : d.coefficient ≠ 0 ∨ d.exponent.toNat = 0) (he : 0 ≤ d.exponent) :
    Spells (Digits.numeral d.coefficient ++ List.replicate d.exponent.toNat '0' ++ ['.', '0'])
      d := by
  refine spells_point (isWhole_numeral_zeros h) (by simp) (by simp)
    (k := d.exponent.toNat + 1) ?_ ?_
  · rw [List.append_assoc, ← List.replicate_succ', Digits.value_append, Digits.value_numeral,
      Digits.value_replicate_zero, List.length_replicate]
    rfl
  · simp only [List.length_singleton]
    omega

/-- A number of several digits has its point between two of them. -/
theorem spells_divided {k : ℕ} (h : d.coefficient ≠ 0) (he : d.exponent = -k)
    (hk : 0 < k ∧ k < (Digits.numeral d.coefficient).length) :
    Spells
      ((Digits.numeral d.coefficient).take ((Digits.numeral d.coefficient).length - k) ++
        '.' :: (Digits.numeral d.coefficient).drop ((Digits.numeral d.coefficient).length - k))
      d := by
  refine spells_point (isWhole_take_numeral h (by omega)) ?_ (k := 0) ?_ ?_ ?_
  · exact fun c hc => Digits.isDigit_of_mem_numeral (List.mem_of_mem_drop hc)
  · rw [ne_eq, List.drop_eq_nil_iff]
    omega
  · rw [List.take_append_drop, Digits.value_numeral, pow_zero, mul_one]
  · rw [List.length_drop]
    omega

/-- A number below one has a zero before the point and may have others behind it. -/
theorem spells_small {k : ℕ} (he : d.exponent = -k)
    (hk : (Digits.numeral d.coefficient).length ≤ k) :
    Spells (['0'] ++ '.' :: (List.replicate (k - (Digits.numeral d.coefficient).length) '0' ++
      Digits.numeral d.coefficient)) d := by
  have hwhole : IsWhole ['0'] := ⟨by simp, by simp, fun _ => rfl⟩
  refine spells_point hwhole ?_ (by simp [Digits.numeral_ne_nil]) (k := 0) ?_ ?_
  · intro c hc
    rcases List.mem_append.1 hc with hc | hc
    · rw [List.eq_of_mem_replicate hc]
      rfl
    · exact Digits.isDigit_of_mem_numeral hc
  · rw [Digits.value_append, Digits.value_append, Digits.value_replicate_zero,
      Digits.value_numeral]
    simp [Digits.value]
  · rw [List.length_append, List.length_replicate]
    omega

theorem spells_positional (hd : d.IsReduced) : Spells d.positional d := by
  have hzero : d.coefficient ≠ 0 ∨ d.exponent = 0 := by
    rcases hd with hmod | rfl
    · exact .inl fun h => hmod (by rw [h])
    · exact .inr rfl
  unfold Decimal.positional
  dsimp only
  split
  · next he => exact spells_whole (hzero.imp_right (by omega)) he
  · next he =>
    split
    · next hplaces =>
      exact spells_divided (hzero.resolve_right (by omega)) (by omega) ⟨by omega, hplaces⟩
    · next hplaces => exact spells_small (by omega) (by omega)

/-- Scientific notation has its point, if there is one, after the first digit. -/
theorem spells_scientific (h : d.coefficient ≠ 0) : Spells d.scientific d := by
  intro negative rest hrest
  have hdigits : ∀ c ∈ (Digits.numeral d.coefficient).drop 1, c.isDigit = true :=
    fun c hc => Digits.isDigit_of_mem_numeral (List.mem_of_mem_drop hc)
  have hplaces := fraction?_optional hdigits
    ((if d.leading < 0 then '-' else '+') :: (Digits.numeral d.leading.natAbs ++ rest))
  have hread := unsigned?_eq negative (isWhole_take_numeral h Nat.one_pos) hplaces.1 hplaces.2
    (exponent?_signed d.leading hrest.stops)
  have hexponent : d.leading - ((Digits.numeral d.coefficient).drop 1).length = d.exponent := by
    rw [Decimal.leading, List.length_drop]
    omega
  have hscientific : ¬ ((Digits.numeral d.coefficient).drop 1 = [] ∧ some d.leading = none) :=
    fun hnone => Option.some_ne_none _ hnone.2
  rw [if_neg hscientific, List.take_append_drop, Digits.value_numeral, Option.getD_some,
    hexponent] at hread
  refine ⟨0, ?_⟩
  unfold Decimal.scientific
  dsimp only
  rw [pow_zero, mul_one, Nat.cast_zero, sub_zero, List.append_assoc, List.append_assoc]
  exact hread

theorem spells_chars (hd : d.IsReduced) : Spells d.chars d := by
  unfold Decimal.chars
  split
  · exact spells_positional hd
  · next hleading =>
    refine spells_scientific fun hzero => hleading ?_
    rcases hd with hmod | rfl
    · exact absurd (by rw [hzero]) hmod
    · rw [Decimal.leading, Digits.numeral_zero]
      decide

end

/-! ## Numbers -/

/-- Zeros behind the coefficient of a decimal do not matter to the double that it is read as. -/
theorem double?_mul_pow {d : Decimal} (hd : d.IsReduced) (negative : Bool) (k : ℕ) :
    double? negative ⟨d.coefficient * 10 ^ k, d.exponent - k⟩ = double? negative d := by
  have hread : (Decimal.reduced (d.coefficient * 10 ^ k) (d.exponent - k)).toFloat? negative =
      (Decimal.reduced d.coefficient d.exponent).toFloat? negative := by
    rcases hd with hmod | rfl
    · rw [Decimal.reduced_mul_pow hmod, Decimal.reduced_of_mod_ne_zero hmod]
    · rw [Nat.zero_mul, Decimal.reduced_zero, Decimal.reduced_zero, Decimal.toFloat?_zero,
        Decimal.toFloat?_zero]
  unfold double?
  rw [hread]

theorem double?_of_isReduced {d : Decimal} (hd : d.IsReduced) {negative : Bool} {x : Float}
    (h : d.toFloat? negative = some x) (hx : x.isFinite = true) :
    double? negative d = some (.float x hx) := by
  have hsame : Decimal.reduced d.coefficient d.exponent = d := by
    rcases hd with hmod | rfl
    · exact Decimal.reduced_of_mod_ne_zero hmod d.exponent
    · exact Decimal.reduced_zero 0
  unfold double?
  rw [hsame, h, Option.bind_some, dif_pos hx]

/-- A number without its sign starts with a digit. -/
theorem head?_of_unsigned? {negative : Bool} {cs : List Char} {r : Number × List Char}
    (h : unsigned? negative cs = some r) : ∃ c, cs.head? = some c ∧ c.isDigit = true := by
  unfold unsigned? at h
  dsimp only at h
  split at h
  · cases h
  · next hdigits =>
    cases cs with
    | nil => exact absurd (.inl rfl) hdigits
    | cons c cs =>
      refine ⟨c, rfl, ?_⟩
      by_contra hc
      exact hdigits (.inl (List.takeWhile_cons_of_neg hc))

/-- The sign before a number is read apart from it. -/
theorem number?_signed {negative : Bool} {cs : List Char} {r : Number × List Char}
    (h : unsigned? negative cs = some r) :
    number? ((if negative then ['-'] else []) ++ cs) = some r := by
  cases negative with
  | true => exact h
  | false =>
    obtain ⟨c, hhead, hc⟩ := head?_of_unsigned? h
    rw [if_neg Bool.false_ne_true, List.nil_append]
    unfold number?
    split
    · obtain rfl : '-' = c := Option.some.inj hhead
      cases hc
    · exact h

theorem integer?_of_fits {n : ℤ} (fits : -9223372036854775808 ≤ n ∧ n < 18446744073709551616) :
    integer? (decide (n < 0)) n.natAbs = some (.int n fits) := by
  have hsigned : (if decide (n < 0) = true then -(n.natAbs : ℤ) else n.natAbs) = n := by
    simp only [decide_eq_true_eq]
    split <;> omega
  have hnonzero : ¬ (decide (n < 0) = true ∧ n.natAbs = 0) := by
    rw [decide_eq_true_eq]
    omega
  unfold integer?
  simp only [hsigned, fits, hnonzero]
  rfl

/-- A number is read from its own text. -/
theorem number?_chars (n : Number) {rest : List Char} (h : EndsNumber rest) :
    number? (n.chars ++ rest) = some (n, rest) := by
  cases n with
  | int n fits =>
    have hread : unsigned? (decide (n < 0)) (Digits.numeral n.natAbs ++ rest) =
        some (.int n fits, rest) := by
      rw [unsigned?_integer _ (isWhole_numeral _) h, Digits.value_numeral, integer?_of_fits fits,
        Option.map_some]
    have hsigned := number?_signed hread
    simp only [decide_eq_true_eq] at hsigned
    rw [Number.chars, List.append_assoc, hsigned]
  | float x finite =>
    have hreduced := Decimal.isReduced_ofFloat finite
    obtain ⟨k, hread⟩ := spells_chars hreduced (Binary.ofFloat x).negative rest h
    rw [double?_mul_pow hreduced,
      double?_of_isReduced hreduced (Decimal.toFloat?_ofFloat finite) finite,
      Option.map_some] at hread
    rw [Number.chars, floatChars, List.append_assoc, number?_signed hread]

end Chronomap.Json
