import FuzzLedger.Store.Insert
import FuzzLedger.Timestamp.Text

/-!
# Writing to the tables directly

A row may be inserted column by column, past the checks of the creating operations; the rules of
the tables still hold.  A name that is no column is refused.  A column that is left out takes its
default: the next identifier, the current time, or nothing.  Nothing may stand only in place of an
identifier, which then is the next one.

What is given is first made into what the column keeps (`Cell.toText?`, `Cell.toNumber?`).  In place
of an identifier only a whole number is taken; in place of a reference anything else refers to no
row, which is found only after the other rules.

A batch's submission time cannot be changed afterwards, its fuzzer host can.
-/

set_option autoImplicit false

namespace FuzzLedger

/-- The columns given for a row, by name. -/
abbrev Cells := List (String × Cell)

/-- The names that stand for the identifier column of any table. -/
def Entity.idAliases : List String := ["rowid", "oid", "_rowid_"]

/-- The column that a name stands for, in letters of either case. -/
def Entity.columnNamed (e : Entity) (name : String) : String :=
  let name := name.map Char.toLower
  if Entity.idAliases.contains name then e.idColumn else name

namespace Cells

/-- The cells under the names of the columns. -/
def named (cells : Cells) (e : Entity) : Cells := cells.map fun (name, cell) =>
  (e.columnNamed name, cell)

/-- The first name that is no column. -/
def unknown? (cells : Cells) (e : Entity) : Option String :=
  (cells.find? fun (name, _) => !e.columns.contains (e.columnNamed name)).map Prod.fst

/-- What is given for the identifier; of several cells the last counts. -/
def identifier (cells : Cells) (e : Entity) : Cell :=
  ((cells.named e).reverse.lookup e.idColumn).getD .null

/-- What is given for a column, or else its default; of several cells the first counts. -/
def given (cells : Cells) (e : Entity) (column : String) (default : Cell := .null) : Cell :=
  ((cells.named e).lookup column).getD default

/-- A text column, which must hold something. -/
def text (cells : Cells) (e : Entity) (column : String) (default : Cell := .null) :
    Except Violation TextCell :=
  match (cells.given e column default).toText? with
  | some text => .ok text
  | none => .error (.notNull e column)

/-- An integer column, which must hold something. -/
def number (cells : Cells) (e : Entity) (column : String) : Except Violation NumberCell :=
  match (cells.given e column).toNumber? with
  | some number => .ok number
  | none => .error (.notNull e column)

/-- A column that refers to a row, which must hold something.  What is no whole number refers to
none; zero stands for it (`Cells.refers`). -/
def key (cells : Cells) (e : Entity) (column : String) : Except Violation Int := do
  return (← cells.number e column).int?.getD 0

/-- Whether there is a whole number in every column that refers to a row. -/
def refers (cells : Cells) (e : Entity) : Bool :=
  e.foreignKeys.all fun key => ((cells.given e key.column).toNumber?.bind NumberCell.int?).isSome

/-- The row with the given columns, in the order of the table's columns. -/
def toRow (cells : Cells) (now : Stamp) (id : Int) : (e : Entity) → Except Violation (Row e)
  | .user => do
    let username ← cells.text .user "username"
    return ⟨id, username⟩
  | .arch => do
    let name ← cells.text .arch "name"
    return ⟨id, name⟩
  | .host => do
    let hostname ← cells.text .host "hostname"
    let archId ← cells.key .host "arch_id"
    return ⟨id, hostname, archId⟩
  | .batch => do
    let fuzzerHost ← cells.text .batch "fuzzer_host"
    let testingHostId ← cells.key .batch "testing_host_id"
    let userId ← cells.key .batch "user_id"
    let submittedAt ← cells.text .batch "submitted_at" (.text now.text)
    return ⟨id, fuzzerHost, testingHostId, userId, submittedAt⟩
  | .opcode => do
    let name ← cells.text .opcode "name"
    let archId ← cells.key .opcode "arch_id"
    return ⟨id, name, archId⟩
  | .testSuccess => do
    let batchId ← cells.key .testSuccess "batch_id"
    let opcodeId ← cells.key .testSuccess "opcode_id"
    let count ← cells.number .testSuccess "count"
    return ⟨id, batchId, opcodeId, count⟩
  | .testFailure => do
    let batchId ← cells.key .testFailure "batch_id"
    let opcodeId ← cells.key .testFailure "opcode_id"
    let pretty ← cells.text .testFailure "pretty"
    let arguments ← cells.text .testFailure "arguments"
    return ⟨id, batchId, opcodeId, pretty, arguments⟩
  | .testFailureState => do
    let failureId ← cells.key .testFailureState "failure_id"
    let location ← cells.text .testFailureState "location"
    let expected ← cells.text .testFailureState "expected_value"
    let actual ← cells.text .testFailureState "actual_value"
    return ⟨id, failureId, location, expected, actual⟩

end Cells

namespace Action

/-- The identifier of a row that is inserted directly: the one that is given, or the next one. -/
def giveId (e : Entity) (given : Cell) : Action Int :=
  match given.toNumber? with
  | none => nextId e
  | some (.int id) => pure id
  | some _ => fail (.engine .mismatch)

/-- Refuses a row with a reference to no row; any other rule that it violates comes first. -/
def refuse (e : Entity) (r : Row e) : Action Unit := fun s =>
  .error (.ofViolation ((s.violation? e r).getD .danglingReference)) s

/-- Inserts a row given by its columns; answers its identifier. -/
def insertCells (now : Stamp) (e : Entity) (cells : Cells) : Action Int := do
  match cells.unknown? e with
  | some name => fail (.engine (.noSuchColumn e name))
  | none =>
    let id ← giveId e (cells.identifier e)
    match cells.toRow now id e with
    | .error v => throw (.ofViolation v)
    | .ok row =>
      if cells.refers e then insert e row else refuse e row
      return id

/-! ## Changing a batch -/

/-- Sets the submission time of the selected batches; answers their number.  Only what is there can
be set. -/
def setSubmittedAt (selected : StoredBatch → Bool) (value : Cell) : Action Nat := do
  let batches := (← get).batches.rows.filter selected
  if batches.all fun b => value.toText? == some b.submittedAt then return batches.length
  else throw (.ofViolation .frozenTime)

/-- Replaces the row of a batch, in its place. -/
def replaceBatch (row : StoredBatch) : Action Unit :=
  modify fun s =>
    { s with batches.rows := s.batches.rows.map fun b => if b.id = row.id then row else b }

/-- Sets the fuzzer host of a batch; answers the number of batches set. -/
def setFuzzerHost (id : Int) (value : Cell) : Action Nat := do
  match (← get).find? .batch id with
  | none => return 0
  | some batch =>
    match value.toText? with
    | none => throw (.ofViolation (.notNull .batch "fuzzer_host"))
    | some fuzzerHost =>
      let row : StoredBatch := { batch with fuzzerHost }
      match Store.overLong? .batch row with
      | some v => throw (.ofViolation v)
      | none => replaceBatch row; return 1

end Action

end FuzzLedger
