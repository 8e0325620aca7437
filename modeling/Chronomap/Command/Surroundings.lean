import Chronomap.Text.Pieces

/-!
# The surroundings of a command

What a command needs of the world: standard input, files and today's date.  `Workspace` is a
world of its own, a directory tree in memory.
-/

namespace Chronomap

/-- Why a text cannot be read or written. -/
inductive IoFault where
  | notFound
  | isDirectory
  | notDirectory
  /-- The bytes are not UTF-8. -/
  | notText
  | other (message : String)
deriving DecidableEq

def IoFault.message : IoFault → String
  | notFound => "No such file or directory (os error 2)"
  | isDirectory => "Is a directory (os error 21)"
  | notDirectory => "Not a directory (os error 20)"
  | notText => "stream did not contain valid UTF-8"
  | other message => message

/-- The ways in which a command reaches the world. -/
structure Surroundings (m : Type → Type) where
  readInput : m (Except IoFault String)
  readFile : (path : String) → m (Except IoFault String)
  writeFile : (path text : String) → m (Except IoFault Unit)
  /-- The current day as an ISO date. -/
  today : m String

/-! ## A directory in memory -/

inductive Content where
  | text (s : String)
  /-- Bytes that are not UTF-8. -/
  | binary
deriving DecidableEq

def Content.read : Content → Except IoFault String
  | text s => .ok s
  | binary => .error .notText

/-- The files below a directory, by the names on the way to them. -/
structure Workspace where
  files : List (List String × Content)
deriving DecidableEq

namespace Workspace

/-- What a place holds, if it is a file. -/
def file? (w : Workspace) (place : List String) : Option Content := w.files.lookup place

/-- Whether a place is a directory: the workspace itself, and all that files lie below. -/
def isDirectory (w : Workspace) (place : List String) : Bool :=
  place == [] || w.files.any fun file => place.isPrefixOf file.1 && place != file.1

/-- The place that the rest of a path leads to from a directory.  An empty name and `.` lead to
where they are and `..` to the directory above, which for the workspace is itself. -/
def walk (w : Workspace) : (place : List String) → (names : List String) →
    Except IoFault (List String)
  | place, [] => .ok place
  | place, name :: names =>
    if w.isDirectory place then
      w.walk
        (if name = "" ∨ name = "." then place
          else if name = ".." then place.dropLast
          else place ++ [name])
        names
    else .error (if (w.file? place).isSome then .notDirectory else .notFound)

/-- The names in a path, between its slashes. -/
def names (path : String) : List String := (pieces '/' path.toList).map String.ofList

def resolve (w : Workspace) (path : String) : Except IoFault (List String) :=
  w.walk [] (names path)

def read (w : Workspace) (path : String) : Except IoFault String :=
  match w.resolve path with
  | .error fault => .error fault
  | .ok place =>
    if w.isDirectory place then .error .isDirectory
    else
      match w.file? place with
      | some content => content.read
      | none => .error .notFound

/-- Gives a place a content: in place of the file there, or as a further file. -/
def put (place : List String) (content : Content) :
    List (List String × Content) → List (List String × Content)
  | [] => [(place, content)]
  | (other, old) :: files =>
    if other = place then (place, content) :: files else (other, old) :: put place content files

/-- A path without the slashes at its end, which say that it names a directory. -/
def withoutEndSlashes (path : String) : String :=
  String.ofList (path.toList.reverse.dropWhile (· == '/')).reverse

def write (w : Workspace) (path text : String) : Except IoFault Workspace :=
  match w.resolve (withoutEndSlashes path) with
  | .error fault => .error fault
  | .ok place =>
    if w.isDirectory place || path.toList.getLast? == some '/' then .error .isDirectory
    else .ok ⟨put place (.text text) w.files⟩

/-- A workspace as the surroundings of commands. -/
def surroundings (input : Content) (today : String) : Surroundings (StateM Workspace) where
  readInput := pure input.read
  readFile path := do return (← get).read path
  writeFile path text := do
    match (← get).write path text with
    | .ok w => set w; return .ok ()
    | .error fault => return .error fault
  today := pure today

end Workspace

end Chronomap
