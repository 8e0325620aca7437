import Chronomap.Command.Basic
import Chronomap.Command.Surroundings
import Chronomap.MapStyle
import Chronomap.Json.Printer

/-!
# Running commands

A command either fails, and then has changed nothing, or gives the text for standard output.
-/

namespace Chronomap.Command

inductive Failure where
  | settingsUnreadable (fault : IoFault)
  | settings (fault : SettingsFault)
  | styleUnreadable (path : String) (fault : IoFault)
  | notStyle
  | date (e : InvalidDate)
  | notWritten (path : String) (fault : IoFault)

def Failure.message : Failure → String
  | settingsUnreadable fault => "io error: " ++ fault.message
  | settings fault => "config error: " ++ fault.message
  | styleUnreadable path fault => "cannot read " ++ path ++ ": " ++ fault.message
  | notStyle =>
    "invalid style document: not a JSON object\n  hint: expected a JSON object with a " ++
      "'layers' array"
  | date e => e.message
  | notWritten path fault => "cannot write " ++ path ++ ": " ++ fault.message

/-- The text of a style guarded by the date in a text. -/
def dated (settings : Settings) (date style : String) : Except Failure String :=
  match MapStyle.parse? style with
  | none => .error .notStyle
  | some s =>
    match s.select settings (.written date) with
    | .ok out => .ok out.style.toJson.pretty
    | .error e => .error (.date e)

/-- The period of the date in a text, as text. -/
def shown (settings : Settings) (date : String) : Except Failure String :=
  match Period.ofIsoDate? settings.numbering date with
  | some p => .ok p.toJson.pretty
  | none => .error (.date ⟨date⟩)

section
variable {m : Type → Type} [Monad m]

/-- A failure in the way of a command, if there is one. -/
def orFail {α β : Type} (failure : β → Failure) (result : Except β α) :
    ExceptT Failure m α :=
  match result with
  | .ok a => pure a
  | .error e => throw (failure e)

/-- The settings in a file, by default the standard ones. -/
def loadSettings (s : Surroundings m) : Option String → ExceptT Failure m Settings
  | none => pure {}
  | some path => do
    let text ← orFail .settingsUnreadable (← s.readFile path)
    orFail .settings (Settings.parse text)

/-- The text of a style file, where `-` is standard input. -/
def loadStyle (s : Surroundings m) (path : String) : ExceptT Failure m String := do
  if path = "-" then orFail (.styleUnreadable path) (← s.readInput)
  else orFail (.styleUnreadable path) (← s.readFile path)

/-- Runs a command; the answer is the text for standard output. -/
def run (s : Surroundings m) : Command → ExceptT Failure m String
  | apply style date output config => do
    let settings ← loadSettings s config
    let text ← loadStyle s style
    let date ← match date with
      | some date => pure date
      | none => s.today
    let out ← orFail id (dated settings date text)
    match output with
    | none => return out ++ "\n"
    | some path =>
      orFail (.notWritten path) (← s.writeFile path (out ++ "\n"))
      return ""
  | range date config => do
    let settings ← loadSettings s config
    let out ← orFail id (shown settings date)
    return out ++ "\n"

end

end Chronomap.Command
