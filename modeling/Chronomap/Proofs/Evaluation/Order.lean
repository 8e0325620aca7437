import Chronomap.Filter.Comparison

/-!
# What comparisons decide

A comparison of two numbers or of two texts decides the relation of the same name, numbers taken as
doubles and texts by code point; no other values are ordered:

    c.holds a b = true ↔ c.Relates a b      (Comparison.holds_iff)

Whether one double is less than another, equal to it or greater is read off a single comparison of
the model of doubles, so that no two of these ever hold together (`floatOrder?_eq`).
-/

namespace Chronomap.Filter.Comparison

/-! ## Relations -/

/-- Two numbers that are related as doubles, or two texts that are related. -/
inductive Ordered (numbers : Float → Float → Prop) (texts : String → String → Prop) :
    Json → Json → Prop
  | num {a b : Json.Number} (h : numbers a.toFloat b.toFloat) :
      Ordered numbers texts (.num a) (.num b)
  | str {a b : String} (h : texts a b) : Ordered numbers texts (.str a) (.str b)

/-- Two values that are equal: numbers as doubles, texts and truth values to themselves, and `null`
to itself. -/
inductive Equal : Json → Json → Prop
  | num {a b : Json.Number} (h : (a.toFloat == b.toFloat) = true) : Equal (.num a) (.num b)
  | str (s : String) : Equal (.str s) (.str s)
  | bool (b : Bool) : Equal (.bool b) (.bool b)
  | null : Equal .null .null

/-- The relation of two values that a comparison stands for. -/
def Relates : Comparison → Json → Json → Prop
  | eq => Equal
  | ne => fun a b => ¬ Equal a b
  | lt => Ordered (· < ·) (· < ·)
  | le => Ordered (· ≤ ·) (· ≤ ·)
  | gt => Ordered (· > ·) (· > ·)
  | ge => Ordered (· ≥ ·) (· ≥ ·)

/-! ## Doubles -/

/-- Doubles compare the other way around when they change places. -/
theorem compare_swap (a b : Float.Model.UnpackedFloat) :
    b.compare a = (a.compare b).map Ordering.swap := by
  have hsign : ∀ s t : Float.Model.UnpackedFloat.Sign, compare t s = (compare s t).swap := by
    intro s t
    cases s <;> cases t <;> rfl
  cases a with
  | notANumber => cases b <;> rfl
  | infinity s =>
    cases b with
    | notANumber => rfl
    | infinity t => exact congrArg some (hsign s t)
    | zero _ | finite _ _ _ _ => cases s <;> rfl
  | zero s =>
    cases b with
    | notANumber | zero _ => rfl
    | infinity t | finite t _ _ _ => cases t <;> rfl
  | finite s m e _ =>
    cases b with
    | notANumber => rfl
    | infinity t => cases t <;> rfl
    | zero _ => cases s <;> rfl
    | finite t m' e' _ =>
      have hparts : (compare e' e).then (compare m' m) =
          ((compare e e').then (compare m m')).swap := by
        rw [Ordering.swap_then, ← Int.compare_swap, ← Nat.compare_swap]
      -- Two doubles below zero are compared by their sizes, the other way around.
      cases s with
      | negative =>
        cases t with
        | negative => exact congrArg (fun o => some (Ordering.swap o)) hparts
        | positive => rfl
      | positive =>
        cases t with
        | negative => rfl
        | positive => exact congrArg some hparts

/-- How two doubles compare in the model of doubles. -/
def modelOrder? (x y : Float) : Option Ordering := x.toModel.compare y.toModel

section

variable {x y : Float}

theorem modelOrder?_swap : modelOrder? y x = (modelOrder? x y).map Ordering.swap :=
  compare_swap _ _

theorem float_lt_iff : x < y ↔ modelOrder? x y = some .lt := by
  show decide ((modelOrder? x y == some .lt) = true) = true ↔ _
  rw [decide_eq_true_iff, beq_iff_eq]

theorem float_beq_iff : (x == y) = true ↔ modelOrder? x y = some .eq := by
  show (modelOrder? x y == some .eq) = true ↔ _
  rw [beq_iff_eq]

theorem float_le_iff : x ≤ y ↔ modelOrder? x y = some .lt ∨ modelOrder? x y = some .eq := by
  show decide ((modelOrder? x y).any (·.isLE) = true) = true ↔ _
  rw [decide_eq_true_iff]
  cases modelOrder? x y with
  | none => simp
  | some o => cases o <;> simp

theorem float_gt_iff : x > y ↔ modelOrder? x y = some .gt := by
  show y < x ↔ _
  rw [float_lt_iff, modelOrder?_swap]
  cases modelOrder? x y with
  | none => simp
  | some o => cases o <;> simp

theorem float_ge_iff : x ≥ y ↔ modelOrder? x y = some .gt ∨ modelOrder? x y = some .eq := by
  show y ≤ x ↔ _
  rw [float_le_iff, modelOrder?_swap]
  cases modelOrder? x y with
  | none => simp
  | some o => cases o <;> simp

theorem floatOrder?_eq : floatOrder? x y = modelOrder? x y := by
  have hgt : y < x ↔ modelOrder? x y = some .gt := float_gt_iff
  unfold floatOrder?
  simp only [float_lt_iff (x := x), hgt, float_beq_iff]
  cases modelOrder? x y with
  | none => rfl
  | some o => cases o <;> rfl

end

/-! ## Texts -/

def textOrder (a b : String) : Ordering := if a < b then .lt else if a = b then .eq else .gt

section

variable {a b : String}

theorem textOrder_eq_lt_iff : textOrder a b = .lt ↔ a < b := by
  unfold textOrder
  split
  · next h => simp [h]
  · next h => split <;> simp [h]

theorem textOrder_eq_eq_iff : textOrder a b = .eq ↔ a = b := by
  unfold textOrder
  split
  · next h =>
    have hne : a ≠ b := by
      rintro rfl
      exact String.lt_irrefl a h
    simp [hne]
  · split <;> simp_all

theorem textOrder_eq_gt_iff : textOrder a b = .gt ↔ a > b := by
  show _ ↔ b < a
  unfold textOrder
  split
  · next h => simp [String.lt_asymm h]
  · next h =>
    split
    · next heq =>
      subst heq
      simp
    · next hne =>
      have hlt : b < a := by
        rw [← String.not_le]
        intro hle
        exact hne (String.le_antisymm hle (String.not_lt.1 h))
      simp [hlt]

theorem textOrder_le_iff : textOrder a b = .lt ∨ textOrder a b = .eq ↔ a ≤ b := by
  rw [← String.not_lt, ← gt_iff_lt, ← textOrder_eq_gt_iff]
  cases textOrder a b <;> simp

theorem textOrder_ge_iff : textOrder a b = .gt ∨ textOrder a b = .eq ↔ a ≥ b := by
  rw [ge_iff_le, ← String.not_lt, ← textOrder_eq_lt_iff]
  cases textOrder a b <;> simp

end

/-! ## Comparisons -/

section

variable {numbers numbers' : Float → Float → Prop} {texts texts' : String → String → Prop}
  {a b : Json}

theorem ordered_congr (hn : ∀ x y, numbers x y ↔ numbers' x y)
    (ht : ∀ s t, texts s t ↔ texts' s t) :
    Ordered numbers texts a b ↔ Ordered numbers' texts' a b := by
  constructor
  · rintro (h | h)
    · exact .num ((hn _ _).1 h)
    · exact .str ((ht _ _).1 h)
  · rintro (h | h)
    · exact .num ((hn _ _).2 h)
    · exact .str ((ht _ _).2 h)

theorem ordered_or : Ordered numbers texts a b ∨ Ordered numbers' texts' a b ↔
    Ordered (fun x y => numbers x y ∨ numbers' x y) (fun s t => texts s t ∨ texts' s t) a b := by
  constructor
  · rintro ((h | h) | (h | h))
    · exact .num (.inl h)
    · exact .str (.inl h)
    · exact .num (.inr h)
    · exact .str (.inr h)
  · rintro (h | h)
    · exact h.imp .num .num
    · exact h.imp .str .str

theorem order?_beq_iff {o : Ordering} :
    (order? a b == some o) = true ↔
      Ordered (fun x y => modelOrder? x y = some o) (fun s t => textOrder s t = o) a b := by
  rw [beq_iff_eq]
  constructor
  · intro h
    unfold order? at h
    split at h
    · rw [floatOrder?_eq] at h
      exact .num h
    · exact .str (Option.some.inj h)
    · cases h
  · rintro (h | h)
    · exact floatOrder?_eq.trans h
    · exact congrArg some h

theorem equal_iff : equal a b = true ↔ Equal a b := by
  constructor
  · intro h
    unfold equal at h
    split at h
    · rw [eq_of_beq h]
      exact .bool _
    · exact .null
    · cases order?_beq_iff.1 h with
      | num hnum => exact .num (float_beq_iff.2 hnum)
      | str hstr =>
        rw [textOrder_eq_eq_iff.1 hstr]
        exact .str _
  · intro h
    cases h with
    | num h => exact order?_beq_iff.2 (.num (float_beq_iff.1 h))
    | str s => exact order?_beq_iff.2 (.str (textOrder_eq_eq_iff.2 rfl))
    | bool b => exact beq_self_eq_true b
    | null => rfl

/-- A comparison holds exactly between the values that its relation relates. -/
theorem holds_iff (c : Comparison) : c.holds a b = true ↔ c.Relates a b := by
  cases c with
  | eq => exact equal_iff
  | ne =>
    show (!equal a b) = true ↔ ¬ Equal a b
    rw [Bool.not_eq_true', ← Bool.not_eq_true, equal_iff]
  | lt =>
    show (order? a b == some .lt) = true ↔ Ordered (· < ·) (· < ·) a b
    rw [order?_beq_iff]
    exact ordered_congr (fun _ _ => float_lt_iff.symm) fun _ _ => textOrder_eq_lt_iff
  | gt =>
    show (order? a b == some .gt) = true ↔ Ordered (· > ·) (· > ·) a b
    rw [order?_beq_iff]
    exact ordered_congr (fun _ _ => float_gt_iff.symm) fun _ _ => textOrder_eq_gt_iff
  | le =>
    show (order? a b == some .lt || order? a b == some .eq) = true ↔ Ordered (· ≤ ·) (· ≤ ·) a b
    rw [Bool.or_eq_true, order?_beq_iff, order?_beq_iff, ordered_or]
    exact ordered_congr (fun _ _ => float_le_iff.symm) fun _ _ => textOrder_le_iff
  | ge =>
    show (order? a b == some .gt || order? a b == some .eq) = true ↔ Ordered (· ≥ ·) (· ≥ ·) a b
    rw [Bool.or_eq_true, order?_beq_iff, order?_beq_iff, ordered_or]
    exact ordered_congr (fun _ _ => float_ge_iff.symm) fun _ _ => textOrder_ge_iff

end

/-! ## Comparisons of texts -/

def RelatesTexts : Comparison → String → String → Prop
  | eq => (· = ·)
  | ne => (· ≠ ·)
  | lt => (· < ·)
  | le => (· ≤ ·)
  | gt => (· > ·)
  | ge => (· ≥ ·)

theorem holds_str_iff (c : Comparison) {a b : String} :
    c.holds (.str a) (.str b) = true ↔ c.RelatesTexts a b := by
  have hequal : Equal (.str a) (.str b) ↔ a = b := by
    constructor
    · rintro (_ | _)
      rfl
    · rintro rfl
      exact .str a
  have hordered : ∀ {numbers : Float → Float → Prop} {texts : String → String → Prop},
      Ordered numbers texts (.str a) (.str b) ↔ texts a b := by
    intro numbers texts
    constructor
    · rintro (_ | h)
      exact h
    · exact .str
  rw [holds_iff]
  cases c with
  | eq => exact hequal
  | ne => exact not_congr hequal
  | _ => exact hordered

end Chronomap.Filter.Comparison
