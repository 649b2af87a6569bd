import ReleaseGate.CommandLine.Session
import ReleaseGate.Time.Epoch
import Std.Time.DateTime.Timestamp

/-!
# The command line

The outer layer: files, clock and random bits of the system, and the streams that texts go to.
-/

namespace ReleaseGate.CommandLine

/-- A number of the system's errors, which some calls give negated. -/
def isCode (number code : UInt32) : Bool := code = number || code = 0 - number

/-- Why the file system of the system refuses. -/
def problemOf : IO.Error → FileProblem
  | .noFileOrDirectory _ _ _ => .missing
  | .alreadyExists _ _ _ => .exists
  | error@(.inappropriateType _ code _) =>
    if isCode 20 code then .notDirectory
    else if isCode 21 code then .isDirectory
    else .other (toString error)
  | error@(.invalidArgument _ code _) =>
    if isCode 36 code then .nameTooLong else .other (toString error)
  | error => .other (toString error)

/-- What the system does, or why it refuses. -/
def attempt {α : Type} (action : IO α) : IO (Except FileProblem α) := do
  try return .ok (← action) catch error => return .error (problemOf error)

instance : FileAccess IO where
  readFile location := attempt (IO.FS.readFile location.text)
  writeFile location content := attempt (IO.FS.writeFile location.text content)
  createDirectory location := attempt (IO.FS.createDir location.text)
  isDirectory location := do
    match ← attempt (IO.FS.readFile location.text) with
    | .error .isDirectory => return true
    | _ => return false

/-- The number of bytes, the first one highest. -/
def ofBytes (bytes : List UInt8) : Nat := bytes.foldl (fun n b => 256 * n + b.toNat) 0

/-- The time now, and identifiers of random bits. -/
def readCircumstances : IO Circumstances := do
  let now ← Std.Time.Timestamp.now
  let bits := ofBytes (← IO.getRandomBytes 256).toList
  return {
    now := .ofClock now.toNanosecondsSinceUnixEpoch.val.toNat
    freshId := fun number => .ofRandom (bits / Nat.pow 2 (128 * number)) }

end ReleaseGate.CommandLine

open ReleaseGate.CommandLine in
/-- Run the command line and end with its exit status. -/
def main (arguments : List String) : IO UInt32 := do
  let result ← match Invocation.read? arguments with
    | some invocation => Result.ofInvocation (← readCircumstances) invocation
    | none => pure Result.refusal
  (← IO.getStdout).putStr result.printed
  (← IO.getStderr).putStr result.errors
  return UInt32.ofNat result.status
