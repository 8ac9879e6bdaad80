import FuzzLedger.Codec.Row
import FuzzLedger.Store.Basic

/-!
# Reading the tables

`Item e` is the form in which rows of kind `e` are read.  Reading a stored row fails if a text
column holds octets, its time is no timestamp or its count no number of 32 bits; a list fails as a
whole at its first such row.

Lists are by ascending identifier.  Only the list of all batches is by the stored text of the
submission time, latest first, and among equal texts by descending identifier.
-/

set_option autoImplicit false

namespace FuzzLedger

/-! ## The read forms -/

/-- The form in which rows of a kind are read. -/
@[reducible] def Item : Entity → Type
  | .user => User
  | .arch => Arch
  | .host => Host
  | .batch => Batch
  | .opcode => Opcode
  | .testSuccess => TestSuccess
  | .testFailure => TestFailure
  | .testFailureState => TestFailureState

/-- Reads a text column, which has a place among the columns of the result. -/
def TextCell.read (index : Nat) (column : String) : TextCell → Except Fault String
  | .text s => .ok s
  | .octets _ => .error (.unreadableCell "Blob" index column)

/-- Reads the column of a count. -/
def NumberCell.read : NumberCell → Except Fault Int32
  | .int n =>
    if Int32.minValue.toInt ≤ n ∧ n ≤ Int32.maxValue.toInt then .ok (Int32.ofInt n)
    else .error (.unreadableCount n)
  | .real _ => .error (.unreadableCell "Real" 3 "count")
  | .other (.text _) => .error (.unreadableCell "Text" 3 "count")
  | .other (.octets _) => .error (.unreadableCell "Blob" 3 "count")

def User.read (u : User TextCell) : Except Fault User := do
  return ⟨u.id, ← u.username.read 1 "username"⟩

def Arch.read (a : Arch TextCell) : Except Fault Arch := do
  return ⟨a.id, ← a.name.read 1 "name"⟩

def Host.read (h : Host TextCell) : Except Fault Host := do
  return ⟨h.id, ← h.hostname.read 1 "hostname", h.archId⟩

/-- Reads a stored batch, its time first. -/
def StoredBatch.read (b : StoredBatch) : Except Fault Batch := do
  match Timestamp.parse? (← b.submittedAt.read 4 "submitted_at") with
  | some time =>
    return ⟨b.id, ← b.fuzzerHost.read 1 "fuzzer_host", b.testingHostId, b.userId, time⟩
  | none => .error .unreadableTime

def Opcode.read (o : Opcode TextCell) : Except Fault Opcode := do
  return ⟨o.id, ← o.name.read 1 "name", o.archId⟩

def StoredSuccess.read (s : StoredSuccess) : Except Fault TestSuccess := do
  return ⟨s.id, s.batchId, s.opcodeId, ← s.count.read⟩

def TestFailure.read (f : TestFailure TextCell) : Except Fault TestFailure := do
  let pretty ← f.pretty.read 3 "pretty"
  return ⟨f.id, f.batchId, f.opcodeId, pretty, ← f.arguments.read 4 "arguments"⟩

def TestFailureState.read (d : TestFailureState TextCell) : Except Fault TestFailureState := do
  let location ← d.location.read 2 "location"
  let expected ← d.expected.read 3 "expected_value"
  return ⟨d.id, d.failureId, location, expected, ← d.actual.read 4 "actual_value"⟩

/-- Reads a stored row. -/
def Row.read : (e : Entity) → Row e → Except Fault (Item e)
  | .user, r => User.read r
  | .arch, r => Arch.read r
  | .host, r => Host.read r
  | .batch, r => StoredBatch.read r
  | .opcode, r => Opcode.read r
  | .testSuccess, r => StoredSuccess.read r
  | .testFailure, r => TestFailure.read r
  | .testFailureState, r => TestFailureState.read r

/-- A read row as JSON. -/
def Item.toJson : (e : Entity) → Item e → Json.Value
  | .user, r => User.toJson r
  | .arch, r => Arch.toJson r
  | .host, r => Host.toJson r
  | .batch, r => Batch.toJson r
  | .opcode, r => Opcode.toJson r
  | .testSuccess, r => TestSuccess.toJson r
  | .testFailure, r => TestFailure.toJson r
  | .testFailureState, r => TestFailureState.toJson r

/-- Reads rows in order, up to the first that cannot be read. -/
def readAll (e : Entity) : List (Row e) → Except Fault (List (Item e))
  | [] => .ok []
  | r :: rows => do
    let item ← Row.read e r
    let items ← readAll e rows
    return item :: items

/-! ## Queries -/

namespace Store

/-- The row that a kind and an identifier name. -/
def get (s : Store) (e : Entity) (id : Int) : Except Fault (Item e) :=
  match s.find? e id with
  | some r => Row.read e r
  | none => .error (.notFound e id)

/-- The row with a name, for kinds whose names differ. -/
def findNamed? (s : Store) (e : Entity) (name : String) : Except Fault (Option (Item e)) :=
  match (s.table e).findNamed? name with
  | some r => (Row.read e r).map some
  | none => .ok none

def findUser? (s : Store) (username : String) : Except Fault (Option User) :=
  s.findNamed? .user username

def findArch? (s : Store) (name : String) : Except Fault (Option Arch) := s.findNamed? .arch name

def findHost? (s : Store) (hostname : String) : Except Fault (Option Host) :=
  s.findNamed? .host hostname

/-- The number of rows of a kind. -/
def count (s : Store) (e : Entity) : Nat := (s.rows e).length

/-- The rows of a kind that refer to a given row. -/
def referring (s : Store) (e : Entity) (parent : RowRef) : List (Row e) :=
  (s.rows e).filter fun r => (Row.references e r).contains parent

def hostsForArch (s : Store) (archId : Int) : Except Fault (List Host) :=
  readAll .host (s.referring .host (.arch, archId))

def opcodesForArch (s : Store) (archId : Int) : Except Fault (List Opcode) :=
  readAll .opcode (s.referring .opcode (.arch, archId))

def successesForBatch (s : Store) (batchId : Int) : Except Fault (List TestSuccess) :=
  readAll .testSuccess (s.referring .testSuccess (.batch, batchId))

def failuresForBatch (s : Store) (batchId : Int) : Except Fault (List TestFailure) :=
  readAll .testFailure (s.referring .testFailure (.batch, batchId))

def statesForFailure (s : Store) (failureId : Int) : Except Fault (List TestFailureState) :=
  readAll .testFailureState (s.referring .testFailureState (.testFailure, failureId))

/-- Whether a batch comes before another in the list of all batches. -/
def listedBefore (a b : StoredBatch) : Bool :=
  b.submittedAt.before a.submittedAt || (a.submittedAt == b.submittedAt && b.id ≤ a.id)

/-- All batches, latest first. -/
def listBatches (s : Store) : Except Fault (List Batch) :=
  readAll .batch ((s.rows .batch).mergeSort listedBefore)

end Store

end FuzzLedger
