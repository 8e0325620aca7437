import Chronomap.Command.Run
import Std.Time.DateTime.Timestamp

/-!
# The program

Runs the command of its arguments in the real world.  It exits with 0, with 1 when the command
fails, and with 2 when the arguments are not well-formed.
-/

namespace Chronomap

/-- The fault behind an error of the system. -/
def IoFault.ofError : IO.Error → IoFault
  | .noFileOrDirectory _ _ _ => .notFound
  | .inappropriateType _ code _ => if code = 21 then .isDirectory else .notDirectory
  | e => .other (toString e)

/-- The text of bytes. -/
def decode (bytes : ByteArray) : Except IoFault String :=
  match String.fromUTF8? bytes with
  | some text => .ok text
  | none => .error .notText

/-- The current day as an ISO date; there is none in years that no instant reaches. -/
def currentDay : IO String := do
  let now ← Std.Time.Timestamp.now
  return ((Instant.ofSeconds? now.toSecondsSinceUnixEpoch.val 0).map Instant.isoDate).getD ""

def world : Surroundings IO where
  readInput := do
    try return decode (← (← IO.getStdin).readBinToEnd)
    catch e => return .error (.ofError e)
  readFile path := do
    try return decode (← IO.FS.readBinFile path)
    catch e => return .error (.ofError e)
  writeFile path text := do
    try
      IO.FS.writeFile path text
      return .ok ()
    catch e => return .error (.ofError e)
  today := currentDay

def usage : String :=
  "usage: chronomap apply STYLE [-d DATE] [-o PATH] [-c PATH]\n" ++
    "       chronomap range DATE [-c PATH]\n"

end Chronomap

open Chronomap in
def main (args : List String) : IO UInt32 := do
  match Command.parse? args with
  | none =>
    (← IO.getStderr).putStr usage
    return 2
  | some command =>
    match ← (command.run world).run with
    | .ok text =>
      (← IO.getStdout).putStr text
      return 0
    | .error failure =>
      (← IO.getStderr).putStr ("error: " ++ failure.message ++ "\n")
      return 1
