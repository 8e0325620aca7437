import Chronomap.Calendar.Date

/-!
# Instants

A point of Coordinated Universal Time on a day of the years −262143 to 262142, to the
nanosecond.  An instant inside a leap second keeps the second before it and counts the
nanoseconds on past 10⁹.

    Instant.ofCivil? y m d = some t  →  t is midnight of a day      (Instant.isMidnight_of_ofCivil?)
-/

namespace Chronomap

/-! ## The range of days -/

/-- −262143-01-01, the first day that instants reach. -/
def firstDay : Int := yearStart (-262143)

/-- 262142-12-31, the last day that instants reach. -/
def lastDay : Int := yearStart 262143 - 1

structure Instant where
  /-- Whole seconds since 1970-01-01T00:00:00Z, rounded down. -/
  secs : Int
  /-- Nanoseconds since the whole second. -/
  nanos : Nat
  inRange : firstDay ≤ secs / 86400 ∧ secs / 86400 ≤ lastDay
  /-- Only the last second of a minute may be prolonged by a leap second. -/
  nanos_lt : nanos < 1000000000 ∨ nanos < 2000000000 ∧ secs % 60 = 59
deriving DecidableEq

namespace Instant

/-! ## Algorithm -/

def ofSeconds? (secs : Int) (nanos : Nat) : Option Instant :=
  if h : (firstDay ≤ secs / 86400 ∧ secs / 86400 ≤ lastDay) ∧
      (nanos < 1000000000 ∨ nanos < 2000000000 ∧ secs % 60 = 59) then
    some ⟨secs, nanos, h.1, h.2⟩
  else none

/-- The day of an instant, counted from 1970-01-01. -/
def dayNumber (t : Instant) : Int := t.secs / 86400

def secondOfDay (t : Instant) : Nat := (t.secs % 86400).toNat

def date (t : Instant) : Date := Date.ofDayNumber t.dayNumber

/-- Instants are ordered by their seconds and then by their nanoseconds. -/
instance : LE Instant := ⟨fun s t => s.secs < t.secs ∨ s.secs = t.secs ∧ s.nanos ≤ t.nanos⟩

instance (s t : Instant) : Decidable (s ≤ t) :=
  inferInstanceAs (Decidable (s.secs < t.secs ∨ s.secs = t.secs ∧ s.nanos ≤ t.nanos))

/-- Midnight at the start of day `n`, if instants reach that day. -/
def midnight? (n : Int) : Option Instant :=
  if h : firstDay ≤ n ∧ n ≤ lastDay then
    some { secs := n * 86400, nanos := 0
           inRange := by rwa [Int.mul_ediv_cancel n (by decide)]
           nanos_lt := .inl (by decide) }
  else none

/-- The day number of the first of month `m` of year `y`, where January of `y` is month 0 and
other months count on into the years before and after. -/
def firstOfMonth (y m : Int) : Int :=
  yearStart (y + m / 12) + daysBeforeMonth (y + m / 12) ((m % 12).toNat + 1)

/-- Midnight of day `d` of month `m` (January is 0) of year `y`.  Months outside the year and
days outside the month are counted on into their neighbours.  There is no answer when the
first of the month or the day itself is out of reach. -/
def ofCivil? (y m d : Int) : Option Instant :=
  (midnight? (firstOfMonth y m)).bind fun _ => midnight? (firstOfMonth y m + (d - 1))

/-! ## Lemmas -/

/-- What it means to be the midnight that day `n` starts with. -/
def IsMidnight (t : Instant) (n : Int) : Prop := t.secs = n * 86400 ∧ t.nanos = 0

theorem le_iff {s t : Instant} :
    s ≤ t ↔ s.secs < t.secs ∨ s.secs = t.secs ∧ s.nanos ≤ t.nanos := Iff.rfl

theorem le_refl (t : Instant) : t ≤ t := .inr ⟨rfl, Nat.le_refl _⟩

theorem midnight?_isSome_iff (n : Int) :
    (midnight? n).isSome ↔ firstDay ≤ n ∧ n ≤ lastDay := by
  unfold midnight?
  split <;> simp_all

theorem isMidnight_of_midnight? {n : Int} {t : Instant} (h : midnight? n = some t) :
    t.IsMidnight n := by
  unfold midnight? at h
  split at h
  · obtain rfl := Option.some.inj h
    exact ⟨rfl, rfl⟩
  · exact absurd h (by simp)

theorem isMidnight_of_ofCivil? {y m d : Int} {t : Instant} (h : ofCivil? y m d = some t) :
    t.IsMidnight (firstOfMonth y m + (d - 1)) := by
  unfold ofCivil? at h
  obtain ⟨_, _, h⟩ := Option.bind_eq_some_iff.1 h
  exact isMidnight_of_midnight? h

theorem IsMidnight.dayNumber_eq {t : Instant} {n : Int} (h : t.IsMidnight n) :
    t.dayNumber = n := by
  unfold Instant.dayNumber
  rw [h.1, Int.mul_ediv_cancel n (by decide)]

end Instant

end Chronomap
