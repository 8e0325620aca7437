/-!
# Tables of TOML

A table is filled by headers and by dotted keys, and the way it came to be decides how it may
still grow.
-/

namespace Chronomap.Toml

/-- How a table came to be. -/
inductive Origin where
  /-- The header of a table in it passed through it. -/
  | passed
  /-- By a header of its own. -/
  | header
  /-- A dotted key passed through it. -/
  | dotted
  /-- Between braces. -/
  | braces
deriving DecidableEq

inductive Value where
  | text (s : String)
  /-- A truth value, a number or a date. -/
  | scalar
  | array (items : List Value)
  | table (origin : Origin) (entries : List (String × Value))
  /-- Tables under one repeated header; the last one is still open. -/
  | tables (earlier : List (List (String × Value))) (last : List (String × Value))

instance : Inhabited Value := ⟨.scalar⟩

abbrev Entries := List (String × Value)

namespace Entries

def get? (key : String) (entries : Entries) : Option Value :=
  (entries.find? fun entry => entry.1 == key).map Prod.snd

def replace (key : String) (value : Value) (entries : Entries) : Entries :=
  entries.map fun entry => if entry.1 == key then (key, value) else entry

/-- Changes the table at the end of a path.  Tables that the path lacks are made on the way; a
dotted key enters no table that has a header of its own, and nothing enters a table between
braces. -/
def within? (isDotted : Bool) (change : Origin → Entries → Option Entries) :
    (path : List String) → Origin → Entries → Option Entries
  | [], origin, entries => change origin entries
  | key :: path, _, entries =>
    match get? key entries with
    | none =>
      let origin := if isDotted then Origin.dotted else .passed
      (within? isDotted change path origin []).map fun sub =>
        entries ++ [(key, .table origin sub)]
    | some (.table origin sub) =>
      if origin = .braces ∨ isDotted ∧ origin = .header then none
      else
        (within? isDotted change path origin sub).map fun sub =>
          replace key (.table origin sub) entries
    | some (.tables earlier last) =>
      (within? isDotted change path .header last).map fun last =>
        replace key (.tables earlier last) entries
    | some _ => none

/-- Gives a key in a table a value; a key that is there already has one for good. -/
def add? (path : List String) (key : String) (value : Value) (origin : Origin)
    (entries : Entries) : Option Entries :=
  within? (!path.isEmpty)
    (fun origin entries =>
      if (origin == .dotted) == path.isEmpty || (get? key entries).isSome then none
      else some (entries ++ [(key, value)]))
    path origin entries

/-- Opens the table that a header names; only a table that other headers have passed through may
be there already. -/
def openTable? (path : List String) (key : String) (entries : Entries) : Option Entries :=
  within? false
    (fun _ entries =>
      match get? key entries with
      | none => some (entries ++ [(key, .table .header [])])
      | some (.table .passed sub) => some (replace key (.table .header sub) entries)
      | some _ => none)
    path .header entries

/-- Opens one more table of the name under a repeated header. -/
def openNext? (path : List String) (key : String) (entries : Entries) : Option Entries :=
  within? false
    (fun _ entries =>
      match get? key entries with
      | none => some (entries ++ [(key, .tables [] [])])
      | some (.tables earlier last) => some (replace key (.tables (earlier ++ [last]) []) entries)
      | some _ => none)
    path .header entries

/-- Gives a key in the table under the current header a value. -/
def addUnder? (header path : List String) (key : String) (value : Value) (entries : Entries) :
    Option Entries :=
  within? false (fun origin entries => add? path key value origin entries) header .header entries

end Entries

end Chronomap.Toml
