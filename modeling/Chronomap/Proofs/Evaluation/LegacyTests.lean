import Chronomap.Proofs.Evaluation.Order
import Chronomap.Proofs.Guard.Meaning

/-!
# The legacy dialect means what it always meant

A filter of the legacy dialect is evaluated as an expression wherever nothing in it proves it to be
legacy: a plain `has`, a membership test without candidates, a compound of such filters, an empty
compound.  Either way a feature passes exactly if it satisfies the filter's meaning, and there are
no failures:

    passes f t.toFilter = .ok verdict,  verdict = true ↔ t.Holds f      (passes_test)

The legacy evaluator finds this meaning for all filters of the dialect, the evaluator of expressions
for those that are not provably legacy; a compound is not provably legacy exactly if none of its
parts is, so the second induction stays among such filters.
-/

namespace Chronomap.Filter

namespace Legacy

/-! ## The dialect -/

/-- A value that keys are compared with. -/
inductive Constant where
  | text (s : String)
  | number (n : Json.Number)
  | truth (b : Bool)

def Constant.toJson : Constant → Json
  | text s => .str s
  | number n => .num n
  | truth b => .bool b

inductive Test where
  | has (key : String)
  | lacks (key : String)
  | compare (c : Comparison) (key : String) (constant : Constant)
  | among (key : String) (constants : List Constant)
  | notAmong (key : String) (constants : List Constant)
  | all (ts : List Test)
  | any (ts : List Test)
  /-- None of one or more filters. -/
  | none (t : Test) (ts : List Test)

mutual

def Test.toFilter : Test → Json
  | .has key => call "has" [.str key]
  | .lacks key => call "!has" [.str key]
  | .compare c key constant => call c.name [.str key, constant.toJson]
  | .among key constants => call "in" (.str key :: constants.map Constant.toJson)
  | .notAmong key constants => call "!in" (.str key :: constants.map Constant.toJson)
  | .all ts => call "all" (filters ts)
  | .any ts => call "any" (filters ts)
  | .none t ts => call "none" (t.toFilter :: filters ts)

def filters : List Test → List Json
  | [] => []
  | t :: ts => t.toFilter :: filters ts

end

/-! ## Its meaning -/

/-- A feature has a value for a key: `$type` names its geometry type, `$id` its id, and every other
key a property. -/
inductive Reads (f : Feature) : String → Json → Prop
  | geometryType {t : String} (h : f.geometryType = some t) : Reads f "$type" (.str t)
  | id {v : Json} (h : f.id = some v) : Reads f "$id" v
  | property {key : String} {v : Json} (plain : key ≠ "$type" ∧ key ≠ "$id")
      (h : Json.Members.get? key f.properties = some v) : Reads f key v

mutual

/-- A feature satisfies a test.  A key that the feature has no value for is unequal to every
constant and satisfies no other comparison. -/
def Test.Holds (f : Feature) : Test → Prop
  | .has key => ∃ v, Reads f key v
  | .lacks key => ¬ ∃ v, Reads f key v
  | .compare c key constant =>
    (∃ v, Reads f key v ∧ c.Relates v constant.toJson) ∨ c = .ne ∧ ¬ ∃ v, Reads f key v
  | .among key constants =>
    ∃ v, Reads f key v ∧ ∃ constant ∈ constants, Comparison.Equal v constant.toJson
  | .notAmong key constants =>
    ¬ ∃ v, Reads f key v ∧ ∃ constant ∈ constants, Comparison.Equal v constant.toJson
  | .all ts => AllHold f ts
  | .any ts => AnyHolds f ts
  | .none t ts => ¬ (t.Holds f ∨ AnyHolds f ts)

def AllHold (f : Feature) : List Test → Prop
  | [] => True
  | t :: ts => t.Holds f ∧ AllHold f ts

def AnyHolds (f : Feature) : List Test → Prop
  | [] => False
  | t :: ts => t.Holds f ∨ AnyHolds f ts

end

/-! ## Outcomes -/

/-- An evaluation has an outcome, and it is whether `P` holds. -/
def Decides (r : Except Failure Bool) (P : Prop) : Prop := ∃ b, r = .ok b ∧ (b = true ↔ P)

section

variable {r s : Except Failure Bool} {P Q : Prop} {f : Feature}

theorem decides_ok {b : Bool} (h : b = true ↔ P) : Decides (.ok b) P := ⟨b, rfl, h⟩

theorem Decides.not (h : Decides r P) : Decides (r.map (!·)) (¬ P) := by
  obtain ⟨b, rfl, hb⟩ := h
  refine decides_ok ?_
  rw [← hb, Bool.not_eq_true', Bool.not_eq_true]

/-- The second evaluation is only looked at if the first one holds. -/
theorem Decides.and (hr : Decides r P) (hs : Decides s Q) :
    Decides (do if ← r then s else .ok false) (P ∧ Q) := by
  obtain ⟨b, rfl, hb⟩ := hr
  obtain ⟨c, rfl, hc⟩ := hs
  rw [← hb, ← hc]
  cases b with
  | false => exact decides_ok (by simp)
  | true => exact decides_ok (by simp)

/-- The second evaluation is only looked at if the first one does not hold. -/
theorem Decides.or (hr : Decides r P) (hs : Decides s Q) :
    Decides (do if ← r then .ok true else s) (P ∨ Q) := by
  obtain ⟨b, rfl, hb⟩ := hr
  obtain ⟨c, rfl, hc⟩ := hs
  rw [← hb, ← hc]
  cases b with
  | false => exact decides_ok (by simp)
  | true => exact decides_ok (by simp)

/-! ## Single tests -/

theorem reads_iff {key : String} {v : Json} : Reads f key v ↔ f.key? key = some v := by
  unfold Feature.key? Feature.property?
  constructor
  · rintro (h | h | ⟨⟨htype, hid⟩, h⟩)
    · simp [h]
    · simp [h]
    · rw [if_neg htype, if_neg hid, h]
  · intro h
    split at h
    · next heq =>
      subst heq
      obtain ⟨t, ht, rfl⟩ := Option.map_eq_some_iff.1 h
      exact .geometryType ht
    · next htype =>
      split at h
      · next heq =>
        subst heq
        exact .id h
      · next hid => exact .property ⟨htype, hid⟩ h

theorem exists_reads_iff {key : String} : (∃ v, Reads f key v) ↔ (f.key? key).isSome = true := by
  rw [Option.isSome_iff_exists]
  exact exists_congr fun _ => reads_iff

theorem compares_iff (c : Comparison) (key : String) (constant : Constant) :
    compares f c [.str key, constant.toJson] = true ↔ (Test.compare c key constant).Holds f := by
  rw [Test.Holds, exists_reads_iff]
  simp only [reads_iff, compares, lookup?]
  cases f.key? key with
  | none => simp
  | some v => simp [← Comparison.holds_iff]

theorem isAmong_iff (key : String) (constants : List Constant) :
    isAmong f (.str key :: constants.map Constant.toJson) = true ↔
      (Test.among key constants).Holds f := by
  have hholds : ∀ v w, Comparison.eq.holds v w = true ↔ Comparison.Equal v w :=
    fun _ _ => Comparison.holds_iff .eq
  rw [Test.Holds]
  simp only [reads_iff, isAmong, lookup?]
  cases f.key? key with
  | none => simp
  | some v => simp [hholds]

/-! ## As legacy filters -/

mutual

/-- The legacy evaluator finds the meaning of every test. -/
theorem decides_passes (f : Feature) : (t : Test) → Decides (passes f t.toFilter) (t.Holds f)
  | .has key => by
    rw [Test.Holds]
    exact decides_ok exists_reads_iff.symm
  | .lacks key => by
    rw [Test.Holds, exists_reads_iff, Bool.not_eq_true, Option.isSome_eq_false_iff]
    exact decides_ok Iff.rfl
  | .compare c key constant => by
    rw [Test.toFilter, passes_compare]
    exact decides_ok (compares_iff c key constant)
  | .among key constants => decides_ok (isAmong_iff key constants)
  | .notAmong key constants => Decides.not (decides_ok (isAmong_iff key constants))
  | .all ts => decides_allPass f ts
  | .any ts => decides_anyPass f ts
  | .none t ts => ((decides_passes f t).or (decides_anyPass f ts)).not

theorem decides_allPass (f : Feature) :
    (ts : List Test) → Decides (allPass f (filters ts)) (AllHold f ts)
  | [] => decides_ok (by simp [AllHold])
  | t :: ts => (decides_passes f t).and (decides_allPass f ts)

theorem decides_anyPass (f : Feature) :
    (ts : List Test) → Decides (anyPass f (filters ts)) (AnyHolds f ts)
  | [] => decides_ok (by simp [AnyHolds])
  | t :: ts => (decides_passes f t).or (decides_anyPass f ts)

end

/-! ## As expressions -/

theorem isLegacy_compare (c : Comparison) (key : String) (constant : Constant) :
    isLegacy (Test.compare c key constant).toFilter = true := by
  cases c <;> cases constant <;> simp [Test.toFilter, Constant.toJson, call, isLegacy,
    Comparison.name, Comparison.ofName?, comparesBareKey]

/-- A membership test with candidates is provably legacy. -/
theorem constants_eq_nil {key : String} {constants : List Constant}
    (h : isLegacy (Test.among key constants).toFilter = false) : constants = [] := by
  match constants with
  | [] => rfl
  | [constant] =>
    cases constant <;> simp [Test.toFilter, Constant.toJson, call, isLegacy, listsCandidates] at h
  | _ :: _ :: _ => simp [Test.toFilter, call, isLegacy, listsCandidates] at h

theorem isLegacy_all (ts : List Test) :
    isLegacy (Test.all ts).toFilter = anyLegacy (filters ts) := by
  cases ts <;> simp [Test.toFilter, filters, call, isLegacy, anyLegacy]

theorem isLegacy_any (ts : List Test) :
    isLegacy (Test.any ts).toFilter = anyLegacy (filters ts) := by
  cases ts <;> simp [Test.toFilter, filters, call, isLegacy, anyLegacy]

/-- A key that is not provably legacy names a property. -/
theorem key?_eq_property? {key : String} (h : isLegacy (Test.has key).toFilter = false) :
    f.key? key = f.property? key := by
  have hplain : key ≠ "$id" ∧ key ≠ "$type" := by
    simpa [Test.toFilter, call, isLegacy, isLegacyKey] using h
  rw [Feature.key?, if_neg hplain.2, if_neg hplain.1]

section

variable {scope : Expression.Scope}

theorem isSatisfied_value_any (args : List Json) :
    (Expression.value f scope (call "any" args)).map Expression.isSatisfied =
      Expression.anyTrue f scope args := by
  rw [Expression.value_any]
  cases Expression.anyTrue f scope args <;> rfl

theorem allTrue_cons (x : Json) (xs : List Json) :
    Expression.allTrue f scope (x :: xs) =
      (do if ← (Expression.value f scope x).map Expression.isSatisfied then
        Expression.allTrue f scope xs else .ok false) := by
  rw [Expression.allTrue]
  cases Expression.value f scope x <;> rfl

theorem anyTrue_cons (x : Json) (xs : List Json) :
    Expression.anyTrue f scope (x :: xs) =
      (do if ← (Expression.value f scope x).map Expression.isSatisfied then
        .ok true else Expression.anyTrue f scope xs) := by
  rw [Expression.anyTrue]
  cases Expression.value f scope x <;> rfl

end

mutual

/-- The evaluator of expressions finds the meaning of the tests that are not provably legacy. -/
theorem decides_value (f : Feature) (scope : Expression.Scope) :
    (t : Test) → isLegacy t.toFilter = false →
      Decides ((Expression.value f scope t.toFilter).map Expression.isSatisfied) (t.Holds f)
  | .has key, h => by
    rw [Test.Holds, exists_reads_iff, key?_eq_property? h, Test.toFilter, Expression.value_has]
    exact decides_ok Iff.rfl
  | .among key constants, h => by
    obtain rfl := constants_eq_nil h
    rw [Test.Holds]
    exact decides_ok (by simp [Expression.isContained, Expression.isSatisfied])
  | .all ts, h => by
    rw [Test.toFilter, Variable.isSatisfied_value_all]
    exact decides_allTrue f scope ts (isLegacy_all ts ▸ h)
  | .any ts, h => by
    rw [Test.toFilter, isSatisfied_value_any]
    exact decides_anyTrue f scope ts (isLegacy_any ts ▸ h)
  | .compare c key constant, h => by
    -- A bare key that is compared with a constant is provably legacy.
    rw [isLegacy_compare] at h
    cases h
  | .lacks _, h | .notAmong _ _, h | .none _ _, h => by
    simp [Test.toFilter, call, isLegacy] at h

theorem decides_allTrue (f : Feature) (scope : Expression.Scope) :
    (ts : List Test) → anyLegacy (filters ts) = false →
      Decides (Expression.allTrue f scope (filters ts)) (AllHold f ts)
  | [], _ => decides_ok (by simp [AllHold])
  | t :: ts, h => by
    rw [filters, anyLegacy, Bool.or_eq_false_iff] at h
    rw [filters, allTrue_cons]
    exact (decides_value f scope t h.1).and (decides_allTrue f scope ts h.2)

theorem decides_anyTrue (f : Feature) (scope : Expression.Scope) :
    (ts : List Test) → anyLegacy (filters ts) = false →
      Decides (Expression.anyTrue f scope (filters ts)) (AnyHolds f ts)
  | [], _ => decides_ok (by simp [AnyHolds])
  | t :: ts, h => by
    rw [filters, anyLegacy, Bool.or_eq_false_iff] at h
    rw [filters, anyTrue_cons]
    exact (decides_value f scope t h.1).or (decides_anyTrue f scope ts h.2)

end

end

/-! ## In either dialect -/

theorem toFilter_ne_null (t : Test) : t.toFilter ≠ .null := by
  cases t <;> exact call_ne_null _ _

/-- A filter of the legacy dialect has its meaning in whichever dialect it is read. -/
theorem passes_test (t : Test) (f : Feature) :
    ∃ verdict, Filter.passes f t.toFilter = .ok verdict ∧ (verdict = true ↔ t.Holds f) := by
  cases h : isLegacy t.toFilter with
  | true =>
    rw [passes_legacy f h]
    exact decides_passes f t
  | false =>
    rw [passes_expression f (toFilter_ne_null t) h]
    exact decides_value f .empty t h

end Legacy

end Chronomap.Filter
