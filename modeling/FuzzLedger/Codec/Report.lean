import FuzzLedger.Json.Decode
import FuzzLedger.Json.Value
import FuzzLedger.Report.Basic

/-!
# Reports as JSON

The upload format of reports.  An entry says of which kind it is under the key `type`, which may
stand anywhere among its keys.  So its other values are read in full and kept until the kind is
known, and only then looked at: whatever is wrong with the text of an entry is found before
anything that is wrong with its shape.
-/

set_option autoImplicit false

namespace FuzzLedger

open Json

/-! ## State differences -/

def StateDiff.toJson (d : StateDiff) : Value :=
  .obj [("location", .text d.location), ("expected", .text d.expected), ("actual", .text d.actual)]

def StateDiff.readJson : Reader StateDiff := fun source room t => do
  let (location, expected, actual, _) ←
    readRecord "struct StateDiff"
      [textField "location", textField "expected", textField "actual"] source room t
  return ⟨location, expected, actual⟩

/-! ## Entries -/

namespace Entry

def toJson : Entry → Value
  | .success opcode count =>
    .obj [("type", .text "success"), ("opcode", .text opcode), ("count", .int count.toInt)]
  | .failure opcode pretty arguments state =>
    .obj [("type", .text "failure"), ("opcode", .text opcode), ("pretty", .text pretty),
      ("raw-operands", .text arguments), ("state", .arr (state.map StateDiff.toJson))]

/-- The two kinds of entries. -/
inductive Kind where
  | success
  | failure
  deriving DecidableEq, Repr

/-- The key that says of which kind an entry is. -/
def kindKey : String := "type"

/-- The kind of an entry, from the value of its key. -/
def readKind : Tree → Result Kind
  | .text (some name) =>
    if name = "success" then .ok .success
    else if name = "failure" then .ok .failure
    else .error (.unknownVariant name ["success", "failure"])
  | t => t.unexpected "variant identifier"

/-- Goes through the members of an entry: finds its kind and keeps all others, which are read in
full. -/
def splitMembers (room : Nat) : Option Kind → Members → Result (Option Kind × Members)
  | kind, .done => .ok (kind, .done)
  | _, .unclosed stop => .error (.text stop)
  | _, .dangling stop => .error (.text stop)
  | _, .brokenKey b => .error (.text b.read)
  | _, .more none _ _ => .error (.text .wrong)
  | kind, .more (some key) value tail =>
    if key = kindKey then
      if kind.isSome then .error (.duplicateField kindKey)
      else do
        let found ← readKind value
        splitMembers room (some found) tail
    else do
      proceed (value.readStop room)
      let (kind, rest) ← splitMembers room kind tail
      return (kind, .more (some key) value rest)

/-- The fields of an entry whose kind is known. -/
def readFields (room : Nat) : Kind → Tree → Result Entry
  | .success, t => do
    let (opcode, count, _) ←
      readRecord "struct variant BatchEntry::Success" [textField "opcode", countField "count"]
        .buffered room t
    return .success opcode count
  | .failure, t => do
    let (opcode, pretty, arguments, state, _) ←
      readRecord "struct variant BatchEntry::Failure"
        [textField "opcode", textField "pretty", textField "raw-operands",
          listField "state" StateDiff.readJson] .buffered room t
    return .failure opcode pretty arguments state

/-- An entry: an object, or an array that starts with its kind. -/
def readJson : Reader Entry := fun _ room t =>
  match t with
  | .map members => do
    let inner ← enter room
    match ← splitMembers inner none members with
    | (some kind, rest) => readFields room kind (.map rest)
    | (none, _) => .error (.missingField kindKey)
  | .seq items => do
    let inner ← enter room
    match items with
    | .more head tail => do
      let kind ← readKind head
      proceed (tail.readStop inner)
      readFields room kind (.seq tail)
    | .done => .error (.missingField kindKey)
    | .unclosed stop => .error (.text stop)
    | .dangling stop => .error (.text stop)
  | t => t.unexpected "internally tagged enum BatchEntry"

end Entry

/-! ## Reports and summaries -/

def Report.toJson (r : Report) : Value :=
  .obj [("fuzzing-host", .text r.fuzzingHost), ("testing-host", .text r.testingHost),
    ("user", .text r.user), ("arch", .text r.arch), ("entries", .arr (r.entries.map Entry.toJson))]

def Report.readJson : Reader Report := fun source room t => do
  let (fuzzingHost, testingHost, user, arch, entries, _) ←
    readRecord "struct BatchReport"
      [textField "fuzzing-host", textField "testing-host", textField "user", textField "arch",
        listField "entries" Entry.readJson] source room t
  return ⟨fuzzingHost, testingHost, user, arch, entries⟩

/-- Reads the text of an uploaded report. -/
def Report.ofText (text : String) : Result Report := readDocument Report.readJson text

def Summary.toJson (s : Summary) : Value :=
  .obj [("batch_id", .int s.batchId), ("successes", .int s.successes),
    ("failures", .int s.failures), ("states", .int s.states)]

def Summary.readJson : Reader Summary := fun source room t => do
  let (batchId, successes, failures, states, _) ←
    readRecord "struct IngestSummary"
      [idField "batch_id", sizeField "successes", sizeField "failures", sizeField "states"]
      source room t
  return ⟨batchId, successes, failures, states⟩

end FuzzLedger
