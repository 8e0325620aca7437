import Chronomap.Filter.Qualifier
import Chronomap.Calendar.DecimalYear
import Chronomap.Toml.Document

/-!
# Settings

What a user may choose about every guard, written in TOML:

    variable_prefix = "mapdate"
    year_numbering = "astronomical"  # or "historical"

Both keys may be left out and no other key is allowed.  Keys are looked at in alphabetical order,
so of several faults the one in the first key is reported.
-/

namespace Chronomap

/-- The qualifier of guard variables and the numbering of years in decimal years. -/
structure Settings where
  qualifier : Qualifier := .standard
  numbering : Numbering := .astronomical
deriving DecidableEq

/-- Why a text holds no settings. -/
inductive SettingsFault where
  | notToml
  | unknownKey (key : String)
  | wrongValue (key : String)
  | badQualifier (text : String) (fault : QualifierFault)
deriving DecidableEq

def SettingsFault.message : SettingsFault → String
  | notToml => "not a TOML document"
  | unknownKey key => "unknown field '" ++ key ++ "'"
  | wrongValue key => "invalid value for '" ++ key ++ "'"
  | badQualifier text fault => fault.message text

namespace Settings

/-- The numbering that a value stands for: its name, or a table with the name as the only key
and nothing in it. -/
def numbering? : Toml.Value → Option Numbering
  | .text name => Numbering.ofName? name
  | .table _ [(name, .table _ [])] => Numbering.ofName? name
  | .table _ [(name, .array [])] => Numbering.ofName? name
  | _ => none

def set (settings : Settings) (entry : String × Toml.Value) : Except SettingsFault Settings :=
  match entry with
  | ("variable_prefix", .text text) =>
    match Qualifier.ofString text with
    | .ok q => .ok { settings with qualifier := q }
    | .error fault => .error (.badQualifier text fault)
  | ("variable_prefix", _) => .error (.wrongValue "variable_prefix")
  | ("year_numbering", value) =>
    match numbering? value with
    | some n => .ok { settings with numbering := n }
    | none => .error (.wrongValue "year_numbering")
  | (key, _) => .error (.unknownKey key)

def parse (text : String) : Except SettingsFault Settings :=
  match Toml.parse? text with
  | none => .error .notToml
  | some entries =>
    (entries.mergeSort fun a b => decide (a.1 ≤ b.1)).foldlM set {}

end Settings

end Chronomap
