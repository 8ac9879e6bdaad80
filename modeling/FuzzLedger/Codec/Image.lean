import FuzzLedger.Session.Basic
import FuzzLedger.Timestamp.Clock

/-!
# Databases as text

The form in which a database is kept in a file: a first line that marks it as one (`Image.mark`),
then a JSON object with the mark of a log, the schema version and, once the schema exists, the
tables with their rows and the largest identifiers they gave out.  Rows are written cell by cell, as
they would be inserted directly.

`FileContent.toText?` writes the form, `FileContent.ofText` reads it; any other text is just a text.
-/

set_option autoImplicit false

namespace FuzzLedger

open Json

/-! ## Cells -/

/-- A cell: octets as an array, a double by its sign, mantissa and power of two.  An infinity has
the power of two after the largest. -/
def Cell.toJson : Cell → Value
  | .null => .null
  | .int n => .int n
  | .real (.finite x) =>
    .obj [("negative", .bool x.negative), ("mantissa", .int x.mantissa), ("power", .int x.exponent)]
  | .real (.infinite negative) =>
    .obj [("negative", .bool negative), ("mantissa", .int 0),
      ("power", .int (Binary64.maxExponent + 1))]
  | .text s => .text s
  | .octets bytes => .arr (bytes.map fun b => .int b.toNat)

/-- A truth value. -/
def readBool : Reader Bool := fun _ _ t =>
  match t with
  | .bool b => .ok b
  | t => t.unexpected "a boolean"

def Double.readJson : Reader Double := fun source room t => do
  let (negative, mantissa, power, _) ←
    readRecord "double"
      [{ key := "negative", Value := Bool, read := readBool }, sizeField "mantissa",
        idField "power"] source room t
  return if Binary64.maxExponent < power then .infinite negative
    else .finite ⟨negative, mantissa, power⟩

def Cell.readJson : Reader Cell := fun source room t =>
  match t with
  | .null => .ok .null
  | .number _ => (readInt64 source room t).map .int
  | .text _ => (readText source room t).map .text
  | .seq _ => (readList readSize source room t).map fun bytes => .octets (bytes.map Nat.toUInt8)
  | t => (Double.readJson source room t).map .real

/-! ## Stored rows -/

def TextCell.toCell : TextCell → Cell
  | .text s => .text s
  | .octets bytes => .octets bytes

def NumberCell.toCell : NumberCell → Cell
  | .int n => .int n
  | .real x => .real x
  | .other cell => cell.toCell

/-- The cells of a row.  Inserted again, they make the same row. -/
def Row.toCells (e : Entity) (r : Row e) : Cells :=
  (e.idColumn, .int (Row.id e r)) ::
    ((Row.links e r).map fun link => (link.1.column, .int link.2)) ++
    match e with
    | .user => [("username", (User.username r).toCell)]
    | .arch => [("name", (Arch.name r).toCell)]
    | .host => [("hostname", (Host.hostname r).toCell)]
    | .batch =>
      [("fuzzer_host", (StoredBatch.fuzzerHost r).toCell),
       ("submitted_at", (StoredBatch.submittedAt r).toCell)]
    | .opcode => [("name", (Opcode.name r).toCell)]
    | .testSuccess => [("count", (StoredSuccess.count r).toCell)]
    | .testFailure =>
      [("pretty", (TestFailure.pretty r).toCell), ("arguments", (TestFailure.arguments r).toCell)]
    | .testFailureState =>
      [("location", (TestFailureState.location r).toCell),
       ("expected_value", (TestFailureState.expected r).toCell),
       ("actual_value", (TestFailureState.actual r).toCell)]

/-- A row as it is stored. -/
def Row.toJson (e : Entity) (r : Row e) : Value :=
  .obj ((Row.toCells e r).map fun (column, cell) => (column, cell.toJson))

/-- The members of an object as cells. -/
def Cells.readMembers (source : Source) (room : Nat) : Members → Result Cells
  | .done => .ok []
  | .more (some column) value tail => do
    let cell ← Cell.readJson source room value
    let cells ← Cells.readMembers source room tail
    return (column, cell) :: cells
  | _ => .error (.text .wrong)

def Row.readJson (e : Entity) : Reader (Row e) := fun source room t =>
  match t with
  | .map members => do
    let cells ← Cells.readMembers source (← enter room) members
    match cells.identifier e with
    | .int id =>
      match cells.toRow .epoch id e with
      | .ok row => return row
      | .error _ => throw (.text .wrong)
    | _ => throw (.text .wrong)
  | t => t.unexpected "a row"

/-! ## Tables -/

def Table.toJson {e : Entity} (t : Table e) : Value :=
  .obj [("last", .int t.last), ("rows", .arr (t.rows.map (Row.toJson e)))]

def Table.readJson (e : Entity) : Reader (Table e) := fun source room t => do
  let (last, rows, _) ←
    readRecord "table" [idField "last", listField "rows" (Row.readJson e)] source room t
  return { rows, last }

@[reducible] def Table.field (e : Entity) : Field :=
  { key := e.table, Value := Table e, read := Table.readJson e }

def Store.toJson (s : Store) : Value :=
  .obj (Entity.all.map fun e => (e.table, (s.table e).toJson))

def Store.readJson : Reader Store := fun source room t => do
  let (users, arches, hosts, batches, opcodes, successes, failures, states, _) ←
    readRecord "tables"
      [Table.field .user, Table.field .arch, Table.field .host, Table.field .batch,
        Table.field .opcode, Table.field .testSuccess, Table.field .testFailure,
        Table.field .testFailureState] source room t
  return ⟨users, arches, hosts, batches, opcodes, successes, failures, states⟩

/-! ## Images -/

namespace Image

/-- The first line of the file of a database. -/
def mark : String := "fuzz ledger\n"

def toJson (image : Image) : Value :=
  .obj (("version", .int image.version) ::
    (image.tables.map fun store => ("tables", store.toJson)).toList)

def readJson : Reader Image := fun source room t => do
  let (version, tables, _) ←
    readRecord "database"
      [idField "version",
        { key := "tables", Value := Option Store, absent := some none
          read := fun source room t => (Store.readJson source room t).map some }] source room t
  return { version, tables }

end Image

/-- The text of a file, if it is one of those that are kept as texts. -/
def FileContent.toText? : FileContent → Option String
  | .text s => some s
  | .database image logged =>
    some (Image.mark ++ (Value.obj [("logged", .bool logged), ("image", image.toJson)]).render
      ++ "\n")
  | .bytes => none

/-- What a file with the given text holds. -/
def FileContent.ofText (text : String) : FileContent :=
  if text.startsWith Image.mark then
    match readDocument readMarked (String.ofList (text.toList.drop Image.mark.length)) with
    | .ok content => content
    | .error _ => .text text
  else .text text
where
  readMarked : Reader FileContent := fun source room t => do
    let (logged, image, _) ←
      readRecord "file"
        [{ key := "logged", Value := Bool, read := readBool },
          { key := "image", Value := Image, read := Image.readJson }] source room t
    return .database image logged

end FuzzLedger
