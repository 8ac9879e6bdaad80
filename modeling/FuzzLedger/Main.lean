import FuzzLedger.Codec.Image
import FuzzLedger.Command.Verdict
import FuzzLedger.Timestamp.Clock
import Std.Time.DateTime.Timestamp

/-!
# The program

Reads the files that an invocation names, carries it out, keeps what it did to the database and
prints what it says.  All decisions are in `Invocation.parse`, `Invocation.run` and `Verdict`.
-/

set_option autoImplicit false

namespace FuzzLedger

/-- Whether there is a directory under a path. -/
def isDirectory (path : String) : IO Bool := do
  try
    discard <| IO.FS.readFile (path ++ "/.")
    return false
  catch
    | .inappropriateType .. => return true
    | _ => return false

/-- Looks at what is in a place. -/
def lookAt (place : Place) : IO Occupant := do
  try
    match String.fromUTF8? (← IO.FS.readBinFile place.path) with
    | some text => return .file (FileContent.ofText text)
    | none => return .file .bytes
  catch _ => return if ← isDirectory place.path then .directory else .nothing

/-- Looks at all places that the paths come to. -/
def lookAlong (paths : List String) : IO Directory := do
  let places := (paths.flatMap Place.along).eraseDups
  let found ← places.mapM fun place => return (place, ← lookAt place)
  return fun place => (found.lookup place).getD .nothing

/-- The reading of the system's clock. -/
def readClock : IO Stamp := do
  let time ← Std.Time.Timestamp.now
  return (Stamp.ofMillis? time.toMillisecondsSinceUnixEpoch.val.toNat).getD .epoch

/-- The files that an invocation reads. -/
def Invocation.sources (i : Invocation) : List String :=
  match i.command with
  | .ingest paths => paths
  | _ => []

/-- The path of the database file, if a name has one. -/
def databasePath (name : String) : List String :=
  match Location.ofName name with
  | .ok location => location.path.toList
  | .error _ => []

/-- Leaves what a run did to the file of its database. -/
def Outcome.save (outcome : Outcome) : IO Unit := do
  if let some (place, content) := outcome.saved then
    if let some text := content.toText? then
      IO.FS.writeFile place.path text

/-- Prints records, numbered from `n`; the number of the first that is not taken, and the error. -/
def printFrom (n : Nat) : List String → IO (Option (Nat × String))
  | [] => return none
  | record :: records => do
    try
      IO.print record
      (← IO.getStdout).flush
    catch error => return some (n, toString error)
    printFrom (n + 1) records

/-- Carries out an invocation on the files of the system and prints what it says.  If something is
not taken, the invocation comes to what it does with such an output. -/
def Invocation.execute (i : Invocation) : IO Outcome := do
  let config := i.config.getD Settings.defaultConfig
  let settings := i.settings (← lookAlong [config])
  let directory ← lookAlong (config :: databasePath settings.dbPath ++ i.sources)
  let now ← readClock
  let outcome := i.run directory (fun _ => now) .ideal
  outcome.save
  match ← printFrom 0 outcome.printed with
  | none => return outcome
  | some (n, error) =>
    let outcome := i.run directory (fun _ => now) fun k => if k = n then .refused 0 error else .taken
    outcome.save
    return outcome

end FuzzLedger

open FuzzLedger in
def main (args : List String) : IO UInt32 := do
  let verdict ←
    match Invocation.parse args with
    | .error reason => do
      let verdict := Verdict.usage reason
      IO.print verdict.stdout
      pure verdict
    | .ok i => Verdict.ran <$> i.execute
  IO.eprint verdict.stderr
  return verdict.exitCode.toUInt32
