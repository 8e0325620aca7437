import Chronomap.Calendar.WrittenDate
import Chronomap.Calendar.Timestamp
import Chronomap.Calendar.DecimalYear
import Chronomap.Json.Basic

/-!
# Periods

A period is a half-open stretch of time.  Each of its ends is kept in three representations,
and each representation may be missing on its own.  A date that leaves out its day or month
stands for the whole month or year; a day and an instant stand for a period without length.
-/

namespace Chronomap

/-! ## Ends -/

structure Endpoint where
  instant : Option Instant
  decimalYear : Option Float
  isoDate : Option String

/-- The end at an instant, or the end of which nothing is known. -/
def Endpoint.ofInstant? (numbering : Numbering) (t : Option Instant) : Endpoint where
  instant := t
  decimalYear := t.map fun t => (t.decimalYear numbering).toFloat
  isoDate := t.map Instant.isoDate

/-- A stretch of time from `start` up to, and without, `finish`. -/
structure Period where
  start : Endpoint
  finish : Endpoint

/-- What a caller asks for: a date in writing or a point in time. -/
inductive Selection where
  | written (text : String)
  | exact (t : Instant)

/-- A selection as it is shown to the user. -/
def Selection.label : Selection → String
  | written text => text
  | exact t => t.timestamp "+00:00"

namespace Period

/-! ## Resolution -/

/-- The period between the instants that are known. -/
def ofInstants? (numbering : Numbering) (s f : Option Instant) : Period :=
  ⟨.ofInstant? numbering s, .ofInstant? numbering f⟩

/-- The period between two instants, if the first is not after the second. -/
def between? (numbering : Numbering) (s f : Instant) : Option Period :=
  if s ≤ f then some (ofInstants? numbering (some s) (some f)) else none

def ofWrittenDate (numbering : Numbering) (d : WrittenDate) : Period :=
  ofInstants? numbering d.start? d.finish?

def ofIsoDate? (numbering : Numbering) (text : String) : Option Period :=
  (WrittenDate.ofString? text).map (ofWrittenDate numbering)

def ofSelection? (numbering : Numbering) : Selection → Option Period
  | .written text => ofIsoDate? numbering text
  | .exact t => some (ofInstants? numbering (some t) (some t))

def isPoint (p : Period) : Bool :=
  p.start.instant.isSome && decide (p.start.instant = p.finish.instant)

/-! ## As JSON -/

/-- The members for one end; `side` is the first part of their keys. -/
def endMembers (side : String) (e : Endpoint) : Json.Members :=
  [(side ++ "Date", (e.instant.map fun t => Json.str (t.timestamp "Z")).getD .null),
   (side ++ "DecimalYear", (e.decimalYear.map Json.ofFloat).getD .null),
   (side ++ "ISODate", (e.isoDate.map Json.str).getD .null)]

/-- A period as a JSON object of six members; what is missing is `null`. -/
def toJson (p : Period) : Json :=
  .obj (endMembers "start" p.start ++ endMembers "end" p.finish)

end Period

end Chronomap
