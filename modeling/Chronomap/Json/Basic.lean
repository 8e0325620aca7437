/-!
# JSON values

A value keeps integers of 64 bits apart from all other numbers, and the members of an object in
order.  An object is looked up and changed by its keys:

    get? k (insert k v ms) = some v                   (Members.get?_insert_self)
    k' ≠ k → get? k' (insert k v ms) = get? k' ms     (Members.get?_insert_of_ne)
-/

namespace Chronomap

namespace Json

/-- An integer of at most 64 bits, with or without a sign, or a finite double. -/
inductive Number where
  | int (n : Int) (fits : -9223372036854775808 ≤ n ∧ n < 18446744073709551616)
  | float (x : Float) (finite : x.isFinite = true)
deriving DecidableEq

/-- The double that a number is compared as. -/
def Number.toFloat : Number → Float
  | int n _ => Float.ofInt n
  | float x _ => x

end Json

inductive Json where
  | null
  | bool (b : Bool)
  | num (n : Json.Number)
  | str (s : String)
  | arr (items : List Json)
  | obj (members : List (String × Json))

namespace Json

instance : Inhabited Json := ⟨null⟩

/-- The members of an object, in order. -/
abbrev Members := List (String × Json)

/-! ## Equality -/

mutual

/-- Whether two values are the same, member for member and in the same order. -/
def same : Json → Json → Bool
  | null, null => true
  | bool a, bool b => a == b
  | num a, num b => a == b
  | str a, str b => a == b
  | arr as, arr bs => sameItems as bs
  | obj as, obj bs => sameMembers as bs
  | _, _ => false

def sameItems : List Json → List Json → Bool
  | [], [] => true
  | a :: as, b :: bs => same a b && sameItems as bs
  | _, _ => false

def sameMembers : List (String × Json) → List (String × Json) → Bool
  | [], [] => true
  | (j, a) :: as, (k, b) :: bs => j == k && same a b && sameMembers as bs
  | _, _ => false

end

mutual

theorem same_iff : (a b : Json) → (same a b = true ↔ a = b)
  | null, b => by cases b <;> simp [same]
  | bool a, b => by cases b <;> simp [same]
  | num a, b => by cases b <;> simp [same]
  | str a, b => by cases b <;> simp [same]
  | arr as, b => by cases b <;> simp [same, sameItems_iff as]
  | obj as, b => by cases b <;> simp [same, sameMembers_iff as]

theorem sameItems_iff : (as bs : List Json) → (sameItems as bs = true ↔ as = bs)
  | [], bs => by cases bs <;> simp [sameItems]
  | a :: as, bs => by cases bs <;> simp [sameItems, same_iff a, sameItems_iff as]

theorem sameMembers_iff :
    (as bs : List (String × Json)) → (sameMembers as bs = true ↔ as = bs)
  | [], bs => by cases bs <;> simp [sameMembers]
  | (j, a) :: as, bs => by
    cases bs <;> simp [sameMembers, same_iff a, sameMembers_iff as, Prod.ext_iff]

end

instance : DecidableEq Json := fun a b => decidable_of_iff _ (same_iff a b)

/-! ## Members -/

namespace Members

/-- The value of a key; of a repeated key the first one. -/
def get? (key : String) : Members → Option Json
  | [] => none
  | (k, v) :: rest => if k = key then some v else get? key rest

/-- Gives a key a value: in place if the object has the key, else as its last member. -/
def insert (key : String) (value : Json) : Members → Members
  | [] => [(key, value)]
  | (k, v) :: rest => if k = key then (k, value) :: rest else (k, v) :: insert key value rest

theorem get?_insert_self (key : String) (value : Json) (ms : Members) :
    get? key (insert key value ms) = some value := by
  induction ms with
  | nil => simp [insert, get?]
  | cons m rest ih => by_cases h : m.1 = key <;> simp [insert, get?, h, ih]

theorem get?_insert_of_ne {key other : String} (ne : other ≠ key) (value : Json)
    (ms : Members) : get? other (insert key value ms) = get? other ms := by
  induction ms with
  | nil => simp [insert, get?, ne.symm]
  | cons m rest ih =>
    by_cases h : m.1 = key
    · simp [insert, get?, h, ne.symm]
    · simp [insert, get?, h, ih]

theorem insert_insert (key : String) (v w : Json) (ms : Members) :
    insert key w (insert key v ms) = insert key w ms := by
  induction ms with
  | nil => simp [insert]
  | cons m rest ih => by_cases h : m.1 = key <;> simp [insert, h, ih]

/-- Giving a key the value that it has changes nothing. -/
theorem insert_of_get? {key : String} {v : Json} {ms : Members} (h : get? key ms = some v) :
    insert key v ms = ms := by
  induction ms with
  | nil => simp [get?] at h
  | cons m rest ih =>
    obtain ⟨k, w⟩ := m
    by_cases hk : k = key
    · simp only [get?, hk, if_true, Option.some.injEq] at h
      simp [insert, hk, h]
    · simp only [get?, hk, if_false] at h
      simp [insert, hk, ih h]

end Members

/-! ## Parts of a value -/

def str? : Json → Option String
  | str s => some s
  | _ => none

def items? : Json → Option (List Json)
  | arr xs => some xs
  | _ => none

def members? : Json → Option Members
  | obj ms => some ms
  | _ => none

/-- The value of a key, if the value is an object that has it. -/
def get? (key : String) : Json → Option Json
  | obj ms => Members.get? key ms
  | _ => none

/-- A double as a number; infinities and NaN have no number and give `null`. -/
def ofFloat (x : Float) : Json :=
  if h : x.isFinite = true then num (.float x h) else null

end Json

end Chronomap
