import FuzzLedger.Json.Decode
import FuzzLedger.Json.Value
import FuzzLedger.Report.Basic
import FuzzLedger.Row
import FuzzLedger.Timestamp.Zoned

/-!
# Rows as JSON

For each kind of row, and for what callers say of new ones, a writer (`toJson`) and a reader
(`readJson`) with the same fields in the same order.  A timestamp is written in its normal form;
a kind of row is written as its name.
-/

set_option autoImplicit false

namespace FuzzLedger

open Json

/-! ## Timestamps and kinds -/

/-- A string that is a timestamp. -/
def Timestamp.readJson : Reader Timestamp := fun _ _ t =>
  match t with
  | .text (some s) =>
    match Timestamp.parse? s with
    | some time => .ok time
    | none => .error .badTimestamp
  | t => t.unexpected "an RFC3339-formatted `OffsetDateTime`"

@[reducible] def Timestamp.field (key : String) : Field :=
  { key, Value := Timestamp, read := Timestamp.readJson }

namespace Entity

def toJson (e : Entity) : Value := .text e.name

/-- The kind that a name stands for. -/
def ofVariant (name : String) : Result Entity :=
  match ofName? name with
  | some e => .ok e
  | none => .error (.unknownVariant name (all.map Entity.name))

/-- The nothing that may stand beside a variant's name. -/
def readUnit : Tree → Result Unit
  | .null => .ok ()
  | t => t.unexpected "unit"

/-- A kind in a text: its name, or an object whose only key is the name and holds nothing. -/
def readJson : Reader Entity := fun _ _ t =>
  match t with
  | .text (some name) => ofVariant name
  | .brokenText b => .error (.text b.read)
  | .missing => .error (.text .early)
  | .map (.more (some name) value tail) => do
    let e ← ofVariant name
    readUnit value
    match tail with
    | .done => return e
    | .unclosed stop => .error (.text stop)
    | _ => .error (.text .wrong)
  | .map (.unclosed stop) => .error (.text stop)
  | .map (.brokenKey b) => .error (.text b.read)
  | _ => .error (.text .wrong)

/-- A kind given as a value that has been read before. -/
def readValue : Tree → Result Entity
  | .text (some name) => ofVariant name
  | .map (.more (some name) value .done) => do
    let e ← ofVariant name
    readUnit value
    return e
  | .map _ => .error .notSingleKey
  | t => t.unexpected "string or map"

end Entity

/-! ## Rows -/

def User.toJson (u : User) : Value := .obj [("id", .int u.id), ("username", .text u.username)]

def User.readJson : Reader User := fun source room t => do
  let (id, username, _) ←
    readRecord "struct User" [idField "id", textField "username"] source room t
  return ⟨id, username⟩

def Arch.toJson (a : Arch) : Value := .obj [("id", .int a.id), ("name", .text a.name)]

def Arch.readJson : Reader Arch := fun source room t => do
  let (id, name, _) ← readRecord "struct Arch" [idField "id", textField "name"] source room t
  return ⟨id, name⟩

def Host.toJson (h : Host) : Value :=
  .obj [("id", .int h.id), ("hostname", .text h.hostname), ("arch_id", .int h.archId)]

def Host.readJson : Reader Host := fun source room t => do
  let (id, hostname, archId, _) ←
    readRecord "struct Host" [idField "id", textField "hostname", idField "arch_id"] source room t
  return ⟨id, hostname, archId⟩

def Opcode.toJson (o : Opcode) : Value :=
  .obj [("id", .int o.id), ("name", .text o.name), ("arch_id", .int o.archId)]

def Opcode.readJson : Reader Opcode := fun source room t => do
  let (id, name, archId, _) ←
    readRecord "struct Opcode" [idField "id", textField "name", idField "arch_id"] source room t
  return ⟨id, name, archId⟩

/-- A batch as JSON, with the text of its time. -/
def Batch.jsonAt (b : Batch) (time : String) : Value :=
  .obj [("id", .int b.id), ("fuzzer_host", .text b.fuzzerHost),
    ("testing_host_id", .int b.testingHostId), ("user_id", .int b.userId),
    ("submitted_at", .text time)]

/-- A batch as JSON, unless formatting refuses its time. -/
def Batch.serialize (b : Batch) : Except ZonedTime.FormatFault Value := do
  return b.jsonAt (← b.submittedAt.zoned.format)

/-- A batch as JSON; that its time is never refused is `Batch.serialize_eq`. -/
def Batch.toJson (b : Batch) : Value := b.jsonAt b.submittedAt.render

def Batch.readJson : Reader Batch := fun source room t => do
  let (id, fuzzerHost, testingHostId, userId, submittedAt, _) ←
    readRecord "struct Batch"
      [idField "id", textField "fuzzer_host", idField "testing_host_id", idField "user_id",
        Timestamp.field "submitted_at"] source room t
  return ⟨id, fuzzerHost, testingHostId, userId, submittedAt⟩

def TestSuccess.toJson (s : TestSuccess) : Value :=
  .obj [("id", .int s.id), ("batch_id", .int s.batchId), ("opcode_id", .int s.opcodeId),
    ("count", .int s.count.toInt)]

def TestSuccess.readJson : Reader TestSuccess := fun source room t => do
  let (id, batchId, opcodeId, count, _) ←
    readRecord "struct TestSuccess"
      [idField "id", idField "batch_id", idField "opcode_id", countField "count"] source room t
  return ⟨id, batchId, opcodeId, count⟩

def TestFailure.toJson (f : TestFailure) : Value :=
  .obj [("id", .int f.id), ("batch_id", .int f.batchId), ("opcode_id", .int f.opcodeId),
    ("pretty", .text f.pretty), ("arguments", .text f.arguments)]

def TestFailure.readJson : Reader TestFailure := fun source room t => do
  let (id, batchId, opcodeId, pretty, arguments, _) ←
    readRecord "struct TestFailure"
      [idField "id", idField "batch_id", idField "opcode_id", textField "pretty",
        textField "arguments"] source room t
  return ⟨id, batchId, opcodeId, pretty, arguments⟩

def TestFailureState.toJson (s : TestFailureState) : Value :=
  .obj [("id", .int s.id), ("test_failure_id", .int s.failureId), ("location", .text s.location),
    ("expected_value", .text s.expected), ("actual_value", .text s.actual)]

def TestFailureState.readJson : Reader TestFailureState := fun source room t => do
  let (id, failureId, location, expected, actual, _) ←
    readRecord "struct TestFailureState"
      [idField "id", idField "test_failure_id", textField "location", textField "expected_value",
        textField "actual_value"] source room t
  return ⟨id, failureId, location, expected, actual⟩

/-! ## What callers say of new rows -/

def NewBatch.toJson (b : NewBatch) : Value :=
  .obj [("fuzzer_host", .text b.fuzzerHost), ("testing_host_id", .int b.testingHostId),
    ("user_id", .int b.userId)]

def NewBatch.readJson : Reader NewBatch := fun source room t => do
  let (fuzzerHost, testingHostId, userId, _) ←
    readRecord "struct NewBatch"
      [textField "fuzzer_host", idField "testing_host_id", idField "user_id"] source room t
  return ⟨fuzzerHost, testingHostId, userId⟩

def NewTestFailure.toJson (f : NewTestFailure) : Value :=
  .obj [("batch_id", .int f.batchId), ("opcode_id", .int f.opcodeId), ("pretty", .text f.pretty),
    ("arguments", .text f.arguments)]

def NewTestFailure.readJson : Reader NewTestFailure := fun source room t => do
  let (batchId, opcodeId, pretty, arguments, _) ←
    readRecord "struct NewTestFailure"
      [idField "batch_id", idField "opcode_id", textField "pretty", textField "arguments"]
      source room t
  return ⟨batchId, opcodeId, pretty, arguments⟩

def NewTestFailureState.toJson (s : NewTestFailureState) : Value :=
  .obj [("test_failure_id", .int s.failureId), ("location", .text s.location),
    ("expected_value", .text s.expected), ("actual_value", .text s.actual)]

def NewTestFailureState.readJson : Reader NewTestFailureState := fun source room t => do
  let (failureId, location, expected, actual, _) ←
    readRecord "struct NewTestFailureState"
      [idField "test_failure_id", textField "location", textField "expected_value",
        textField "actual_value"] source room t
  return ⟨failureId, location, expected, actual⟩

end FuzzLedger
