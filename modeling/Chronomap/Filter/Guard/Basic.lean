import Chronomap.Filter.Comparison
import Chronomap.Period

/-!
# Date guards

A date guard keeps the features whose lifespan overlaps a period: they start before the period
ends and do not end before it starts.  A feature states either side of its lifespan as a decimal
year or, failing that, as an ISO date; a side that it does not state is unlimited.
-/

namespace Chronomap.Filter

/-- A side of a lifespan or of a period. -/
inductive Side where
  | start
  | finish
deriving DecidableEq

/-- The scale that a side is stated on. -/
inductive Scale where
  | decimalYear
  | isoDate
deriving DecidableEq

/-- A value that a guard takes from a period. -/
structure Field where
  side : Side
  scale : Scale
deriving DecidableEq

namespace Side

/-- The side of the period that this side of a lifespan is compared with. -/
def opposite : Side → Side
  | start => finish
  | finish => start

/-- The property in which a feature states this side of its lifespan. -/
def property : Side → Scale → String
  | start, .decimalYear => "start_decdate"
  | start, .isoDate => "start_date"
  | finish, .decimalYear => "end_decdate"
  | finish, .isoDate => "end_date"

/-- How this side of a lifespan compares to the opposite side of a period that it overlaps. -/
def comparison : Side → Comparison
  | start => .lt
  | finish => .ge

end Side

namespace Field

/-- All fields, in the order in which they are bound. -/
def all : List Field :=
  [⟨.start, .decimalYear⟩, ⟨.start, .isoDate⟩, ⟨.finish, .decimalYear⟩, ⟨.finish, .isoDate⟩]

def name : Field → String
  | ⟨.start, .decimalYear⟩ => "startDecimalYear"
  | ⟨.start, .isoDate⟩ => "startISODate"
  | ⟨.finish, .decimalYear⟩ => "endDecimalYear"
  | ⟨.finish, .isoDate⟩ => "endISODate"

theorem mem_all (field : Field) : field ∈ all := by
  obtain ⟨side, scale⟩ := field
  cases side <;> cases scale <;> decide

theorem name_inj {a b : Field} (h : a.name = b.name) : a = b := by
  obtain ⟨s, f⟩ := a
  obtain ⟨s', f'⟩ := b
  cases s <;> cases f <;> cases s' <;> cases f' <;> first | rfl | exact absurd h (by decide)

end Field

end Chronomap.Filter

namespace Chronomap

def Period.endpoint (p : Period) : Filter.Side → Endpoint
  | .start => p.start
  | .finish => p.finish

/-- A field of a period as JSON, if the period has it. -/
def Period.value? (p : Period) : Filter.Field → Option Json
  | ⟨side, .decimalYear⟩ => (p.endpoint side).decimalYear.map .ofFloat
  | ⟨side, .isoDate⟩ => (p.endpoint side).isoDate.map .str

end Chronomap

namespace Chronomap.Filter

/-! ## Calls -/

def call (op : String) (args : List Json) : Json := .arr (.str op :: args)

def args? (op : String) : Json → Option (List Json)
  | .arr (.str head :: args) => if head = op then some args else none
  | _ => none

theorem args?_call (op : String) (args : List Json) : args? op (call op args) = some args := by
  simp [args?, call]

theorem eq_call_of_args? {op : String} {v : Json} {args : List Json}
    (h : args? op v = some args) : v = call op args := by
  unfold args? at h
  split at h
  · split at h
    · next heq =>
      obtain rfl := Option.some.inj h
      rw [heq, call]
    · simp at h
  · simp at h

/-- A filter unless it is `null`, which counts as none. -/
def present : Option Json → Option Json
  | some .null => none
  | filter => filter

end Chronomap.Filter
