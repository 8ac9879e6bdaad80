import FuzzLedger.CommandLine.Basic
import FuzzLedger.Session.Request
import FuzzLedger.Timestamp.Zoned

/-!
# What commands print

Every record is printed as text or as JSON, and ends with a line feed.  Rows and summaries are
written in JSON with their members in the order of declaration; compound objects, here `BatchView`,
have theirs in alphabetical order at every level.

The output may fail while a record is printed, and then the command fails too (`emit`).  What
becomes of each record is given beforehand (`Output`), like the readings of the clock; a character
gets through as a whole or not at all.
-/

set_option autoImplicit false

namespace FuzzLedger

open Json (Value)

/-! ## Printing -/

/-- What a command has to say. -/
structure Record where
  json : Value
  text : String

/-- A record in a format. -/
def Record.render (format : OutputFormat) (r : Record) : String :=
  match format with
  | .text => r.text ++ "\n"
  | .json => r.json.render ++ "\n"

/-- What becomes of something that is printed. -/
inductive Reception where
  | taken
  /-- So many of its characters get through, and then the output fails. -/
  | refused (length : Nat) (error : String)
  deriving DecidableEq, Repr

/-- What becomes of the records of a run, one after the other. -/
abbrev Output := Nat → Reception

/-- An output that takes everything. -/
def Output.ideal : Output := fun _ => .taken

/-- Prints a text: all of it, or the part that gets through before the output fails. -/
def Reception.print (reception : Reception) (text : String) : String × Option Failure :=
  match reception with
  | .taken => (text, none)
  | .refused length error => (String.ofList (text.toList.take length), some ⟨.output error, []⟩)

/-- Prints a record in a format. -/
def emit (reception : Reception) (format : OutputFormat) (r : Record) : String × Option Failure :=
  reception.print (r.render format)

/-! ## Rows as text -/

namespace Line

def user (u : User) : String := s!"user {u.id} {u.username}"

def arch (a : Arch) : String := s!"arch {a.id} {a.name}"

def host (h : Host) (archName : String) : String := s!"host {h.id} {h.hostname} ({archName})"

def opcode (o : Opcode) (archName : String) : String := s!"opcode {o.id} {o.name} ({archName})"

def batch (b : Batch) : String := s!"batch {b.id} submitted_at {b.submittedAt.shown}"

def success (s : TestSuccess) : String :=
  s!"success {s.id} batch {s.batchId} opcode {s.opcodeId} count {s.count.toInt}"

def failure (f : TestFailure) : String :=
  s!"failure {f.id} batch {f.batchId} opcode {f.opcodeId}: {f.pretty}"

def state (d : TestFailureState) : String :=
  s!"state {d.id} failure {d.failureId} {d.location}: expected {d.expected} actual {d.actual}"

def listed (b : Batch) : String := s!"{b.id}\t{b.submittedAt.shown}\t{b.fuzzerHost}"

def summary (path : String) (s : Summary) : String :=
  s!"{path}: batch {s.batchId} ({s.successes} successes, {s.failures} failures, {s.states} states)"

end Line

/-! ## A batch with all that hangs off it -/

/-- A failure and its differences. -/
structure FailureView where
  failure : TestFailure
  states : List TestFailureState
  deriving DecidableEq

/-- A batch with its host, its user and its results. -/
structure BatchView where
  batch : Batch
  host : Host
  user : User
  successes : List TestSuccess
  failures : List FailureView

namespace FailureView

/-- The failure's members and its states in one object. -/
def toJson (v : FailureView) : Value :=
  match v.failure.toJson with
  | .obj members => .obj (members ++ [("states", .arr (v.states.map TestFailureState.toJson))])
  | other => other

def lines (v : FailureView) : List String :=
  s!"  FAIL opcode {v.failure.opcodeId} {v.failure.pretty} {v.failure.arguments}" ::
    v.states.map fun d => s!"       {d.location}: expected {d.expected} actual {d.actual}"

end FailureView

namespace BatchView

def toJson (v : BatchView) : Value :=
  (Value.obj
    [("batch", v.batch.toJson), ("testing_host", v.host.toJson), ("user", v.user.toJson),
     ("successes", .arr (v.successes.map TestSuccess.toJson)),
     ("failures", .arr (v.failures.map FailureView.toJson))]).sortKeys

def headline (v : BatchView) : String :=
  s!"batch {v.batch.id} by {v.user.username} at {v.batch.submittedAt.shown}: " ++
    s!"fuzzer {v.batch.fuzzerHost} -> {v.host.hostname}"

def lines (v : BatchView) : List String :=
  v.headline ::
    (v.successes.map fun s => s!"  ok   opcode {s.opcodeId} x{s.count.toInt}") ++
    v.failures.flatMap FailureView.lines

def text (v : BatchView) : String := "\n".intercalate v.lines

end BatchView

/-- Reads the differences of each failure. -/
def Store.viewFailures (s : Store) : List TestFailure → Except Fault (List FailureView)
  | [] => .ok []
  | f :: rest => do
    let states ← s.statesForFailure f.id
    let views ← s.viewFailures rest
    return ⟨f, states⟩ :: views

/-- Reads a batch with all that hangs off it. -/
def Store.viewBatch (s : Store) (id : Int) : Except Fault BatchView := do
  let batch : Batch ← s.get .batch id
  let host : Host ← s.get .host batch.testingHostId
  let user : User ← s.get .user batch.userId
  let successes ← s.successesForBatch id
  let failures ← s.failuresForBatch id
  return ⟨batch, host, user, successes, ← s.viewFailures failures⟩

end FuzzLedger
