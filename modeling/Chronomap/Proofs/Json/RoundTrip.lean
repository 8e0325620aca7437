import Chronomap.Proofs.Json.Nesting
import Chronomap.Proofs.Json.Numbers
import Chronomap.Proofs.Json.Strings

/-!
# Documents are read back

A document that is written over several lines is read as the same document, provided that it nests
no deeper than the reader may go, and otherwise not at all:

    v.WellKeyed → Json.parse? depth v.pretty = if v.nesting ≤ depth then some v else none
                                                                                 (parse?_pretty)

Arrays and objects are written and read alike, as rows between two brackets, so that what holds of
one row is carried over to all of them once (`separated?_rows`).
-/

namespace Chronomap.Json

/-! ## Blanks -/

theorem skipBlanks_newline (level : Nat) (cs : List Char) :
    skipBlanks (newline level ++ cs) = skipBlanks cs := by
  have hblanks : ∀ k, skipBlanks (List.replicate k ' ' ++ cs) = skipBlanks cs := by
    intro k
    induction k with
    | zero => rfl
    | succ k ih => exact ih
  exact hblanks (2 * level)

theorem skipBlanks_cons {c : Char} (h : isBlank c = false) (cs : List Char) :
    skipBlanks (c :: cs) = c :: cs := by
  rw [skipBlanks, List.dropWhile_cons_of_neg (by rw [h]; decide)]

theorem value?_newline (depth level : Nat) (cs : List Char) :
    value? depth (newline level ++ cs) = value? depth cs := by
  unfold value?
  rw [skipBlanks_newline]

/-! ## Rows -/

section

variable {α : Type}

/-- Rows after the first one, each after a comma, and what closes them. -/
def moreRows (row : α → List Char) (closing : List Char) : List α → List Char
  | [] => closing
  | x :: xs => ',' :: (row x ++ moreRows row closing xs)

def itemRow (level : Nat) (x : Json) : List Char :=
  newline (level + 1) ++ prettyChars (level + 1) x

theorem prettyItems_eq (level : Nat) (xs : List Json) :
    prettyItems level xs = moreRows (itemRow level) (newline level ++ [']']) xs := by
  induction xs with
  | nil => rfl
  | cons x xs ih => rw [prettyItems, ih, moreRows, itemRow]

def memberRow (level : Nat) (m : String × Json) : List Char :=
  newline (level + 1) ++ quoted m.1 ++ ':' :: ' ' :: prettyChars (level + 1) m.2

theorem prettyMembers_eq (level : Nat) (ms : Members) :
    prettyMembers level ms = moreRows (memberRow level) (newline level ++ ['}']) ms := by
  induction ms with
  | nil => rfl
  | cons m ms ih => rw [prettyMembers, ih, moreRows, memberRow]

theorem length_le_moreRows (row : α → List Char) (closing : List Char) (xs : List α) :
    xs.length + closing.length ≤ (moreRows row closing xs).length := by
  induction xs with
  | nil => simp [moreRows]
  | cons x xs ih =>
    rw [moreRows, List.length_cons, List.length_cons, List.length_append]
    omega

/-- What may follow the first row belongs to no number. -/
theorem endsNumber_moreRows (row : α → List Char) (level : Nat) (cs : List Char) (xs : List α)
    (rest : List Char) : EndsNumber (moreRows row (newline level ++ cs) xs ++ rest) := by
  cases xs <;> rintro c ⟨⟩ <;> decide

variable {item : List Char → Option (α × List Char)} {row : α → List Char} {close : Char}
  {fits : α → Prop} [DecidablePred fits]

/-- Rows are read back if each of them is, and not at all if one of them is not. -/
theorem separated?_rows (hcomma : close ≠ ',') (hblank : isBlank close = false) (level : Nat)
    (rest : List Char) {xs : List α} {x : α}
    (h : ∀ y ∈ x :: xs, ∀ rest, EndsNumber rest →
      item (row y ++ rest) = if fits y then some (y, rest) else none)
    {fuel : Nat} (hfuel : xs.length < fuel) :
    separated? item close fuel (row x ++ (moreRows row (newline level ++ [close]) xs ++ rest)) =
      if ∀ y ∈ x :: xs, fits y then some (x :: xs, rest) else none := by
  -- After a row comes the closing bracket, or a comma and the rows that are left.
  induction xs generalizing x fuel with
  | nil =>
    obtain ⟨fuel, rfl⟩ := Nat.exists_eq_add_one_of_ne_zero (Nat.ne_of_gt hfuel)
    rw [separated?, h x List.mem_cons_self _ (endsNumber_moreRows row level [close] [] rest)]
    by_cases hx : fits x
    · have hclose : skipBlanks (moreRows row (newline level ++ [close]) [] ++ rest) =
          close :: rest := by
        rw [moreRows, List.append_assoc, skipBlanks_newline]
        exact skipBlanks_cons hblank rest
      simp [hclose, hcomma, hx]
    · simp [hx]
  | cons y ys ih =>
    obtain ⟨fuel, rfl⟩ := Nat.exists_eq_add_one_of_ne_zero (Nat.ne_of_gt (Nat.zero_lt_of_lt hfuel))
    rw [separated?, h x List.mem_cons_self _ (endsNumber_moreRows row level [close] (y :: ys) rest)]
    by_cases hx : fits x
    · have hnext : skipBlanks (moreRows row (newline level ++ [close]) (y :: ys) ++ rest) =
          ',' :: (row y ++ (moreRows row (newline level ++ [close]) ys ++ rest)) := by
        rw [moreRows, List.cons_append, List.append_assoc]
        exact skipBlanks_cons rfl _
      have hmore := ih (x := y) (fun z hz => h z (List.mem_cons_of_mem x hz))
        (Nat.lt_of_succ_lt_succ hfuel)
      simp only [if_pos hx, hnext, if_true, hmore]
      by_cases hys : ∀ z ∈ y :: ys, fits z
      · rw [if_pos hys, if_pos (List.forall_mem_cons.2 ⟨hx, hys⟩), Option.map_some]
      · rw [if_neg hys, if_neg fun hall => hys (List.forall_mem_cons.1 hall).2, Option.map_none]
    · rw [if_neg hx, if_neg fun hall => hx (hall x List.mem_cons_self)]

/-- Brackets are closed right after the rows between them. -/
theorem bracketed?_rows (hcomma : close ≠ ',') (hblank : isBlank close = false) (level : Nat)
    (rest : List Char) {xs : List α} {x : α}
    (h : ∀ y ∈ x :: xs, ∀ rest, EndsNumber rest →
      item (row y ++ rest) = if fits y then some (y, rest) else none)
    (hfirst : ∀ rest, ∃ c cs, skipBlanks (row x ++ rest) = c :: cs ∧ c ≠ close) :
    bracketed? item close (row x ++ (moreRows row (newline level ++ [close]) xs ++ rest)) =
      if ∀ y ∈ x :: xs, fits y then some (x :: xs, rest) else none := by
  obtain ⟨c, cs, hskip, hne⟩ := hfirst (moreRows row (newline level ++ [close]) xs ++ rest)
  have hlength := length_le_moreRows row (newline level ++ [close]) xs
  have hfuel : xs.length <
      (row x ++ (moreRows row (newline level ++ [close]) xs ++ rest)).length := by
    rw [List.length_append, List.length_singleton] at hlength
    rw [List.length_append, List.length_append]
    omega
  unfold bracketed?
  rw [hskip]
  simp only [if_neg hne]
  exact separated?_rows hcomma hblank level rest h hfuel

theorem bracketed?_empty (hblank : isBlank close = false) (rest : List Char) :
    bracketed? item close (close :: rest) = some ([], rest) := by
  rw [bracketed?, skipBlanks_cons hblank]
  exact if_pos rfl

end

/-! ## Values -/

/-- A number starts with a digit or a sign. -/
theorem head?_of_number? {cs : List Char} {r : Number × List Char} (h : number? cs = some r) :
    ∃ c, cs.head? = some c ∧ (c.isDigit = true ∨ c = '-') := by
  unfold number? at h
  split at h
  · exact ⟨'-', rfl, .inr rfl⟩
  · obtain ⟨c, hhead, hc⟩ := head?_of_unsigned? h
    exact ⟨c, hhead, .inl hc⟩

theorem isBlank_of_isDigit {c : Char} (h : c.isDigit = true ∨ c = '-') : isBlank c = false := by
  cases hblank : isBlank c with
  | false => rfl
  | true =>
    simp only [isBlank, Bool.or_eq_true, beq_iff_eq] at hblank
    rcases hblank with ((rfl | rfl) | rfl) | rfl <;> exact absurd h (by decide)

/-- A number is the last thing that a value may be. -/
theorem value?_of_number? {cs rest : List Char} {n : Number} (h : number? cs = some (n, rest))
    (depth : Nat) : value? depth cs = some (num n, rest) := by
  obtain ⟨c, hhead, hc⟩ := head?_of_number? h
  obtain ⟨cs, rfl⟩ := List.head?_eq_some_iff.1 hhead
  have hother : ∀ c' cs', c :: cs = c' :: cs' → ¬ (c'.isDigit = true ∨ c' = '-') → False :=
    fun c' cs' heq hnot => hnot ((List.cons.inj heq).1 ▸ hc)
  unfold value?
  rw [skipBlanks_cons (isBlank_of_isDigit hc)]
  split
  case h_7 => rw [h, Option.map_some]
  all_goals next heq => exact (hother _ _ heq (by decide)).elim

/-- The first character of a value is no blank and closes no array. -/
theorem exists_cons_prettyChars (level : Nat) (v : Json) :
    ∃ c cs, prettyChars level v = c :: cs ∧ isBlank c = false ∧ c ≠ ']' := by
  cases v with
  | null => exact ⟨'n', _, rfl, rfl, by decide⟩
  | bool b =>
    cases b with
    | true => exact ⟨'t', _, rfl, rfl, by decide⟩
    | false => exact ⟨'f', _, rfl, rfl, by decide⟩
  | num n =>
    have hread := number?_chars n endsNumber_nil
    obtain ⟨c, hhead, hc⟩ := head?_of_number? hread
    rw [List.append_nil] at hhead
    obtain ⟨cs, hcs⟩ := List.head?_eq_some_iff.1 hhead
    refine ⟨c, cs, hcs, isBlank_of_isDigit hc, ?_⟩
    rintro rfl
    exact absurd hc (by decide)
  | str s => exact ⟨'"', _, rfl, rfl, by decide⟩
  | arr xs => cases xs <;> exact ⟨'[', _, rfl, rfl, by decide⟩
  | obj ms => cases ms <;> exact ⟨'{', _, rfl, rfl, by decide⟩

theorem value?_blank (depth : Nat) (cs : List Char) :
    value? depth (' ' :: cs) = value? depth cs := by
  unfold value?
  rfl

theorem memberRow_append (level : Nat) (m : String × Json) (rest : List Char) :
    memberRow level m ++ rest = newline (level + 1) ++ '"' ::
      (m.1.toList.flatMap escaped ++ '"' :: ':' :: ' ' ::
        (prettyChars (level + 1) m.2 ++ rest)) := by
  simp [memberRow, quoted]

/-- A member is read back if its value is. -/
theorem member?_row {depth level : Nat} {m : String × Json}
    (h : ∀ rest, EndsNumber rest → value? depth (prettyChars (level + 1) m.2 ++ rest) =
      if m.2.nesting ≤ depth then some (m.2, rest) else none)
    {rest : List Char} (hrest : EndsNumber rest) :
    member? (value? depth) (memberRow level m ++ rest) =
      if m.2.nesting ≤ depth then some (m, rest) else none := by
  unfold member?
  rw [memberRow_append, skipBlanks_newline, skipBlanks_cons rfl]
  simp only [contents?_escaped_quote]
  rw [skipBlanks_cons rfl]
  simp only [value?_blank, h rest hrest]
  split
  · rw [Option.map_some, String.ofList_toList]
  · rfl

theorem ofMembers_of_nodup {ms : Members} (h : (ms.map Prod.fst).Nodup) : ofMembers ms = obj ms :=
  congrArg obj (Members.foldl_insert_nil h)

theorem value?_arr (depth : Nat) (cs : List Char) :
    value? (depth + 1) ('[' :: cs) =
      (bracketed? (value? depth) ']' cs).map fun r => (arr r.1, r.2) := by
  rw [value?, skipBlanks_cons rfl]
  rfl

theorem value?_obj (depth : Nat) (cs : List Char) :
    value? (depth + 1) ('{' :: cs) =
      (bracketed? (member? (value? depth)) '}' cs).map fun r => (ofMembers r.1, r.2) := by
  rw [value?, skipBlanks_cons rfl]
  rfl

section

variable {depth level : Nat} {rest : List Char}

/-- An array is read back if its items are. -/
theorem value?_prettyChars_arr {xs : List Json}
    (h : ∀ x ∈ xs, ∀ rest, EndsNumber rest → value? depth (prettyChars (level + 1) x ++ rest) =
      if x.nesting ≤ depth then some (x, rest) else none) :
    value? (depth + 1) (prettyChars level (arr xs) ++ rest) =
      if ∀ x ∈ xs, x.nesting ≤ depth then some (arr xs, rest) else none := by
  cases xs with
  | nil =>
    have htext : prettyChars level (arr []) ++ rest = '[' :: ']' :: rest := rfl
    rw [htext, value?_arr, bracketed?_empty rfl]
    simp
  | cons x xs =>
    have htext : prettyChars level (arr (x :: xs)) ++ rest =
        '[' :: (itemRow level x ++
          (moreRows (itemRow level) (newline level ++ [']']) xs ++ rest)) := by
      rw [prettyChars, prettyItems_eq, List.cons_append, itemRow, List.append_assoc]
    have hrow : ∀ y ∈ x :: xs, ∀ rest, EndsNumber rest → value? depth (itemRow level y ++ rest) =
        if y.nesting ≤ depth then some (y, rest) else none := by
      intro y hy rest hrest
      rw [itemRow, List.append_assoc, value?_newline, h y hy rest hrest]
    have hfirst : ∀ rest, ∃ c cs, skipBlanks (itemRow level x ++ rest) = c :: cs ∧ c ≠ ']' := by
      intro rest
      obtain ⟨c, cs, hcs, hblank, hne⟩ := exists_cons_prettyChars (level + 1) x
      refine ⟨c, cs ++ rest, ?_, hne⟩
      rw [itemRow, List.append_assoc, skipBlanks_newline, hcs, List.cons_append,
        skipBlanks_cons hblank]
    rw [htext, value?_arr, bracketed?_rows (by decide) rfl level rest hrow hfirst]
    split <;> rfl

/-- An object is read back if the values of its members are. -/
theorem value?_prettyChars_obj {ms : Members} (hms : (ms.map Prod.fst).Nodup)
    (h : ∀ m ∈ ms, ∀ rest, EndsNumber rest → value? depth (prettyChars (level + 1) m.2 ++ rest) =
      if m.2.nesting ≤ depth then some (m.2, rest) else none) :
    value? (depth + 1) (prettyChars level (obj ms) ++ rest) =
      if ∀ m ∈ ms, m.2.nesting ≤ depth then some (obj ms, rest) else none := by
  cases ms with
  | nil =>
    have htext : prettyChars level (obj []) ++ rest = '{' :: '}' :: rest := rfl
    rw [htext, value?_obj, bracketed?_empty rfl]
    simp [ofMembers_of_nodup]
  | cons m ms =>
    have htext : prettyChars level (obj (m :: ms)) ++ rest =
        '{' :: (memberRow level m ++
          (moreRows (memberRow level) (newline level ++ ['}']) ms ++ rest)) := by
      rw [prettyChars, prettyMembers_eq, List.cons_append, memberRow, List.append_assoc]
    have hrow : ∀ m' ∈ m :: ms, ∀ rest, EndsNumber rest →
        member? (value? depth) (memberRow level m' ++ rest) =
          if m'.2.nesting ≤ depth then some (m', rest) else none :=
      fun m' hm' rest hrest => member?_row (h m' hm') hrest
    have hfirst : ∀ rest, ∃ c cs, skipBlanks (memberRow level m ++ rest) = c :: cs ∧ c ≠ '}' := by
      intro rest
      rw [memberRow_append, skipBlanks_newline, skipBlanks_cons rfl]
      exact ⟨'"', _, rfl, by decide⟩
    rw [htext, value?_obj, bracketed?_rows (by decide) rfl level rest hrow hfirst]
    split
    · rw [Option.map_some, ofMembers_of_nodup hms]
    · rfl

end

/-- A value is read from its own text. -/
theorem value?_prettyChars {v : Json} (hv : v.WellKeyed) (depth level : Nat) {rest : List Char}
    (h : EndsNumber rest) :
    value? depth (prettyChars level v ++ rest) =
      if v.nesting ≤ depth then some (v, rest) else none := by
  -- A scalar nests nothing, so it fits every depth.
  have hscalar : ∀ {v : Json} {depth : Nat} {read : Option (Json × List Char)}
      {rest : List Char}, v.nesting = 0 → read = some (v, rest) →
        read = if v.nesting ≤ depth then some (v, rest) else none := by
    intro v depth read rest hzero hread
    rw [if_pos (by omega), hread]
  -- Every item is on a level, and before a text, of its own.
  induction hv generalizing depth level rest with
  | null =>
    refine hscalar rfl ?_
    unfold value?
    rfl
  | bool b =>
    refine hscalar rfl ?_
    unfold value?
    cases b <;> rfl
  | num n => exact hscalar rfl (value?_of_number? (number?_chars n h) depth)
  | str s =>
    have htext : prettyChars level (str s) ++ rest =
        '"' :: (s.toList.flatMap escaped ++ '"' :: rest) := by
      simp [prettyChars, quoted]
    refine hscalar rfl ?_
    rw [htext]
    unfold value?
    rw [skipBlanks_cons rfl]
    simp only [contents?_escaped_quote, Option.map_some, String.ofList_toList]
  | @arr xs items ih =>
    cases depth with
    | zero =>
      rw [if_neg (by rw [nesting]; omega)]
      cases xs <;> rfl
    | succ depth =>
      simp only [nesting_arr_le_iff]
      exact value?_prettyChars_arr fun x hx rest hrest =>
        ih x hx depth (level + 1) hrest
  | @obj ms distinct values ih =>
    cases depth with
    | zero =>
      rw [if_neg (by rw [nesting]; omega)]
      cases ms <;> rfl
    | succ depth =>
      simp only [nesting_obj_le_iff]
      exact value?_prettyChars_obj distinct fun m hm rest hrest =>
        ih m hm depth (level + 1) hrest

/-- A document is read from its own text exactly if it nests no deeper than allowed. -/
theorem parse?_pretty {v : Json} (hv : v.WellKeyed) (depth : Nat) :
    parse? depth v.pretty = if v.nesting ≤ depth then some v else none := by
  have hread := value?_prettyChars hv depth 0 endsNumber_nil
  rw [List.append_nil] at hread
  unfold parse? pretty
  rw [String.toList_ofList, hread]
  by_cases hfits : v.nesting ≤ depth
  · simp only [if_pos hfits]
    exact if_pos rfl
  · simp only [if_neg hfits]

end Chronomap.Json
