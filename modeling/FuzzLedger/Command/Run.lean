import FuzzLedger.Command.Open
import FuzzLedger.Command.Output
import FuzzLedger.Session.Call

/-!
# Running commands

`Invocation.run` carries out an invocation.  What it needs of the outside comes in as data: what is
where (`Directory`), the readings of the clock and what becomes of its output.  What it does to the
outside is in its `Outcome`: what is printed, the failure if there is one, and what the database
file holds afterwards if it was touched.

Every command but `ingest` prints what it has to say at its end; if it fails before, it prints
nothing and leaves the tables as they were.  `ingest` records its files one by one, each in a
transaction of its own, prints the summary of each and stops at the first that fails.  On a database
that cannot be written, whatever writes fails, after the checks that go before writing.
-/

set_option autoImplicit false

namespace FuzzLedger

/-- The readings of the clock, one after the other. -/
abbrev Clock := Nat → Stamp

/-- What a run did. -/
structure Outcome where
  /-- What was printed, record by record. -/
  printed : List String := []
  failure : Option Failure := none
  /-- The place of the database file and what it holds afterwards, if the run touched it. -/
  saved : Option (Place × FileContent) := none

/-- The standard output of a run. -/
def Outcome.stdout (outcome : Outcome) : String := String.join outcome.printed

/-- The configuration of a run; a file that cannot be read or is no configuration counts as
none. -/
def Invocation.loadConfig (i : Invocation) (d : Directory) : Option Config :=
  match d.readText (i.config.getD Settings.defaultConfig) with
  | .ok text => (Config.ofText text).toOption
  | .error _ => none

/-! ## Single commands -/

/-- The row with a name given on the command line. -/
def namedRow (e : Entity) (name : String) : Call (Item e) :=
  Session.query e fun s =>
    match s.findNamed? e name with
    | .ok (some x) => .ok x
    | .ok none => .error (.unknownName e name)
    | .error fault => .error fault

/-- Creates a row. -/
def CreateCommand.perform (now : Stamp) : CreateCommand → Call Record
  | .user username => do
    let u ← Session.createUser username
    return ⟨u.toJson, Line.user u⟩
  | .arch name => do
    let a ← Session.createArch name
    return ⟨a.toJson, Line.arch a⟩
  | .host hostname archName => do
    let a : Arch ← namedRow .arch archName
    let h ← Session.createHost hostname a.id
    return ⟨h.toJson, Line.host h a.name⟩
  | .opcode name archName => do
    let a : Arch ← namedRow .arch archName
    let o ← Session.createOpcode name a.id
    return ⟨o.toJson, Line.opcode o a.name⟩
  | .batch fuzzerHost testingHost username => do
    let h : Host ← namedRow .host testingHost
    let u : User ← namedRow .user username
    let b ← Session.createBatch now ⟨fuzzerHost, h.id, u.id⟩
    return ⟨b.toJson, Line.batch b⟩
  | .success batchId opcodeId count => do
    let s ← Session.addTestSuccess batchId opcodeId count
    return ⟨s.toJson, Line.success s⟩
  | .failure batchId opcodeId pretty arguments => do
    let f ← Session.addTestFailure ⟨batchId, opcodeId, pretty, arguments⟩
    return ⟨f.toJson, Line.failure f⟩
  | .state failureId location expected actual => do
    let d ← Session.addTestFailureState ⟨failureId, location, expected, actual⟩
    return ⟨d.toJson, Line.state d⟩

/-- What `init` says in JSON. -/
def initRecord (path : String) (version : Int) : Json.Value :=
  (Json.Value.obj [("db", .text path), ("schema_version", .int version)]).sortKeys

/-- What `delete` says in JSON. -/
def deleteRecord (e : Entity) (id : Int) : Json.Value :=
  (Json.Value.obj [("entity", e.toJson), ("id", .int id), ("deleted", .bool true)]).sortKeys

/-- Says which schema the database has. -/
def performInit (path : String) : Call Record := do
  let version := (← get).image.version
  return ⟨initRecord path version, s!"{path}: schema version {version}"⟩

/-- Deletes a row, which must exist. -/
def performDelete (e : Entity) (id : Int) : Call Record := do
  let found ← Session.delete e id
  if found then return ⟨deleteRecord e id, s!"deleted {e.display} {id}"⟩
  else throw ⟨.nothingToDelete e id, []⟩

/-- Reads all batches. -/
def performShowBatches : Call Record := do
  let batches ← Session.query .batch Store.listBatches
  return ⟨.arr (batches.map Batch.toJson), "\n".intercalate (batches.map Line.listed)⟩

/-- Reads a batch with all that hangs off it. -/
def performShowBatch (id : Int) : Call Record := do
  let view ← Session.query .batch fun s => s.viewBatch id
  return ⟨view.toJson, view.text⟩

/-! ## Ingesting files -/

/-- Records a report, if the database can be written; otherwise it fails at the first row, which is
the user's. -/
def recordReport (obstacle : Option Obstacle) (now : Stamp) (r : Report) : Call Summary :=
  match obstacle with
  | none => Session.record now r
  | some obstacle => Session.within "user" (refuseWriting obstacle (Session.ensureUser r.user))

/-- Reads, parses and records one file. -/
def ingestFile (d : Directory) (obstacle : Option Obstacle) (now : Stamp) (path : String) :
    Call Record := fun s =>
  match d.readText path with
  | .error fault => .error (Failure.within s!"reading {path}" ⟨fault, []⟩) s
  | .ok text =>
    match Report.ofText text with
    | .error fault => .error (Failure.within s!"parsing {path}" ⟨.json fault, []⟩) s
    | .ok report =>
      match recordReport obstacle now report s with
      | .ok summary s => .ok ⟨summary.toJson, Line.summary path summary⟩ s
      | .error f s => .error (f.within s!"recording {path}") s

/-- Ingests files in order, and prints the summary of each, up to the first that fails or whose
summary cannot be printed.  Before each file as many have been recorded as the number of its reading
of the clock says.  Answers what was printed, the failure if there was one, and the session. -/
def ingestFiles (files : Nat → Directory) (obstacle : Option Obstacle) (format : OutputFormat)
    (clock : Clock) (output : Output) :
    Nat → List String → Session → List String × Option Failure × Session
  | _, [], s => ([], none, s)
  | reading, path :: paths, s =>
    match ingestFile (files reading) obstacle (clock reading) path s with
    | .error f s => ([], some f, s)
    | .ok record s =>
      match emit (output reading) format record with
      | (printed, some f) => ([printed], some f, s)
      | (printed, none) =>
        let (rest, failure, s) :=
          ingestFiles files obstacle format clock output (reading + 1) paths s
        (printed :: rest, failure, s)

/-! ## Whole runs -/

/-- The version of the program. -/
def programVersion : String := "0.1.0"

/-- What the command `version` prints. -/
def versionLine : String := s!"fuzzermon {programVersion} (core {programVersion})\n"

/-- Prints the version. -/
def runVersion (output : Output) : Outcome :=
  let (printed, failure) := (output 0).print versionLine
  { printed := [printed], failure }

/-- Runs a call on an open database and prints what it answers. -/
def runCall (output : Output) (format : OutputFormat) (o : Opened) (call : Call Record) : Outcome :=
  match call o.session with
  | .ok record s =>
    let (printed, failure) := emit (output 0) format record
    { printed := [printed], failure, saved := o.saved s }
  | .error f s => { failure := some f, saved := o.saved s }

/-- Runs a command on an open database. -/
def Command.runOn (d : Directory) (clock : Clock) (output : Output) (settings : Settings)
    (o : Opened) : Command → Outcome
  | .version => runVersion output
  | .init => runCall output settings.format o (performInit settings.dbPath)
  | .create row => runCall output settings.format o (writing o.obstacle (row.perform (clock 0)))
  | .showBatch id => runCall output settings.format o (performShowBatch id)
  | .showBatches => runCall output settings.format o performShowBatches
  | .delete e id => runCall output settings.format o (writing o.obstacle (performDelete e id))
  | .ingest paths =>
    let (printed, failure, s) :=
      ingestFiles (o.around d) o.obstacle settings.format clock output 0 paths o.session
    { printed, failure, saved := o.saved s }

/-- The settings of an invocation. -/
def Invocation.settings (i : Invocation) (d : Directory) : Settings :=
  Settings.resolve i (i.loadConfig d)

/-- Carries out an invocation.  Only `version` does without the database. -/
def Invocation.run (i : Invocation) (d : Directory) (clock : Clock) (output : Output) : Outcome :=
  let settings := i.settings d
  match i.command with
  | .version => runVersion output
  | command =>
    match openDatabase d settings with
    | .error f => { failure := some f.failure, saved := f.saved }
    | .ok o => command.runOn d clock output settings o

end FuzzLedger
