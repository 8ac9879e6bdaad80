import FuzzLedger.Json.Fault
import FuzzLedger.Limit
import FuzzLedger.Row

/-!
# What can go wrong

`Fault` lists the causes for which a call on the ledger or a command fails, and `Fault.message?`
their wording.  A `Failure` is a fault together with the contexts it passed through, outermost
first.

The tables report a refused write as an `EngineError`, a code and a text; `Fault.ofEngine` sorts
these into the faults that callers tell apart.  `Violation` lists the refusals that occur, and
`Violation.report` gives the code and text of each.
-/

set_option autoImplicit false

namespace FuzzLedger

/-! ## Errors of the storage engine -/

/-- A failure of the storage engine: its result code and its text, if it gave one. -/
structure EngineError where
  code : Int
  text : Option String
  deriving DecidableEq, Repr

namespace EngineError

def nestedTransaction : EngineError := ⟨1, some "cannot start a transaction within a transaction"⟩
def nothingToCommit : EngineError := ⟨1, some "cannot commit - no transaction is active"⟩
def nothingToRollBack : EngineError := ⟨1, some "cannot rollback - no transaction is active"⟩
def full : EngineError := ⟨13, some "database or disk is full"⟩
def notADatabase : EngineError := ⟨26, some "file is not a database"⟩
def cannotOpen (name : String) : EngineError := ⟨14, some s!"unable to open database file: {name}"⟩
def noJournal : EngineError := ⟨14, some "unable to open database file"⟩
def unreadable : EngineError := ⟨266, some "disk I/O error"⟩
def readOnly : EngineError := ⟨8, some "attempt to write a readonly database"⟩
def badAuthority (text : String) : EngineError := ⟨1, some s!"invalid uri authority: {text}"⟩
def noSuchMode (kind text : String) : EngineError := ⟨1, some s!"no such {kind} mode: {text}"⟩
def modeNotAllowed (text : String) : EngineError := ⟨3, some s!"access mode not allowed: {text}"⟩
def noSuchSystem (text : String) : EngineError := ⟨1, some s!"no such vfs: {text}"⟩
def noSuchTable (e : Entity) : EngineError := ⟨1, some s!"no such table: {e.table}"⟩
def noSuchColumn (e : Entity) (column : String) : EngineError :=
  ⟨1, some s!"table {e.table} has no column named {column}"⟩
def mismatch : EngineError := ⟨20, some "datatype mismatch"⟩

/-- The general meaning of a result code. -/
def meaning : Int → String
  | 1 => "SQL error or missing database"
  | 3 => "Access permission denied"
  | 8 => "Attempt to write a readonly database"
  | 13 => "Insertion failed because database is full"
  | 14 => "Unable to open the database file"
  | 20 => "Data type mismatch"
  | 26 => "File opened that is not a database file"
  | 266 => "Error reading from disk"
  | _ => "Unknown error code"

/-- The line under an engine failure in a report of causes. -/
def codeLine (e : EngineError) : String := s!"Error code {e.code}: {meaning e.code}"

end EngineError

/-! ## Refused writes -/

/-- Why the tables refuse a row or a change to one. -/
inductive Violation where
  | full
  | notNull (e : Entity) (column : String)
  | overLong (column : String) (limit : Nat)
  | sameId (e : Entity)
  | sameName (e : Entity)
  | danglingReference
  | frozenTime
  deriving DecidableEq, Repr

/-- The code and text of a refusal. -/
def Violation.report : Violation → EngineError
  | .full => .full
  | .notNull e column => ⟨1299, some s!"NOT NULL constraint failed: {e.table}.{column}"⟩
  | .overLong column limit => ⟨275, some s!"CHECK constraint failed: length({column}) <= {limit}"⟩
  | .sameId e => ⟨1555, some s!"UNIQUE constraint failed: {e.table}.{e.idColumn}"⟩
  | .sameName e => ⟨2067, some s!"UNIQUE constraint failed: {e.table}.{e.uniqueColumn}"⟩
  | .danglingReference => ⟨787, some "FOREIGN KEY constraint failed"⟩
  | .frozenTime => ⟨1811, some "batches.submitted_at is immutable"⟩

/-! ## Faults -/

/-- The cause of a failed call or command. -/
inductive Fault where
  | tooLong (t : TooLong)
  | duplicate (column : String)
  | missingReference
  | check (text : String)
  | immutable (text : String)
  | hostArchMismatch (hostname : String) (existing requested : Int)
  | notFound (e : Entity) (id : Int)
  | engine (error : EngineError)
  /-- A query that had to give a row gave none. -/
  | noRow
  /-- The schema was to be created where it exists. -/
  | schemaExists
  | invalidVersion (version : Int)
  | newerVersion (version : Int)
  /-- A stored submission time that is no timestamp. -/
  | unreadableTime
  /-- A stored count that has no 32 bits. -/
  | unreadableCount (n : Int)
  /-- A column of a result that holds something of another kind than it is read as. -/
  | unreadableCell (kind : String) (index : Nat) (column : String)
  /-- A time to wait for a busy database that has no 31 bits of milliseconds. -/
  | timeoutTooLong
  /-- The standard output did not take what was printed. -/
  | output (text : String)
  | json (fault : Json.Fault)
  | missingFile
  | isDirectory
  /-- A path goes on after something that is no directory. -/
  | notDirectory
  | nameTooLong
  /-- A path holds the character that ends a path. -/
  | nulInPath
  /-- The name of a database holds that character, after so many octets. -/
  | nulInName (offset : Nat)
  /-- A file that was to be read as text holds something else. -/
  | notText
  /-- A name on the command line that no row has. -/
  | unknownName (e : Entity) (name : String)
  /-- A row on the command line that was to be deleted and does not exist. -/
  | nothingToDelete (e : Entity) (id : Int)
  deriving DecidableEq, Repr

namespace Fault

/-- The newest schema version. -/
def newestVersion : Int := 1

/-- The wording of a fault, for those whose wording is fixed. -/
def message? : Fault → Option String
  | .tooLong t => some t.message
  | .duplicate column => some s!"duplicate value for {column}"
  | .missingReference => some "referenced row does not exist"
  | .check text => some s!"constraint failed: {text}"
  | .immutable text => some text
  | .hostArchMismatch hostname existing requested =>
    some s!"host {hostname} belongs to arch {existing}, not {requested}"
  | .notFound e id => some s!"{e.display} {id} not found"
  | .engine error => error.text
  | .noRow => some "Query returned no rows"
  | .schemaExists => some "table users already exists"
  | .invalidVersion version =>
    some s!"database schema version {version} is not a valid migration level"
  | .newerVersion version =>
    some s!"database schema version {version} is newer than this build supports ({newestVersion})"
  | .unreadableTime => none
  | .unreadableCount n => some s!"Integer {n} out of range at index 3"
  | .unreadableCell kind index column =>
    some s!"Invalid column type {kind} at index: {index}, name: {column}"
  | .timeoutTooLong => some "too big"
  | .output text => some text
  | .json fault => fault.message?
  | .missingFile => some "No such file or directory (os error 2)"
  | .isDirectory => some "Is a directory (os error 21)"
  | .notDirectory => some "Not a directory (os error 20)"
  | .nameTooLong => some "File name too long (os error 36)"
  | .nulInPath => some "file name contained an unexpected NUL byte"
  | .nulInName offset => some s!"nul byte found in provided data at position: {offset}"
  | .notText => some "stream did not contain valid UTF-8"
  | .unknownName e name => some s!"unknown {e.display} {name}"
  | .nothingToDelete e id => some s!"{e.display} {id} not found"

/-- The part of a text after its last colon and space, or all of it. -/
def afterLastColon (text : String) : String := go text.toList text.toList
where
  /-- `best` is what follows the last separator met so far. -/
  go (best : List Char) : List Char → String
    | ':' :: ' ' :: rest => go rest rest
    | _ :: rest => go best rest
    | [] => String.ofList best

/-- Sorts an engine failure into the faults that callers tell apart.  A text that is not given
counts as empty. -/
def ofEngine (error : EngineError) : Fault :=
  let text := error.text.getD ""
  if error.code = 2067 ∨ error.code = 1555 then .duplicate (afterLastColon text)
  else if error.code = 787 then .missingReference
  else if error.code = 275 ∨ error.code = 1299 then .check text
  else if error.code = 1811 then .immutable text
  else .engine error

end Fault

/-! ## Failures with their contexts -/

/-- A fault and the contexts around it, outermost first. -/
structure Failure where
  fault : Fault
  context : List String := []
  deriving DecidableEq, Repr

namespace Failure

/-- The failure inside one more context. -/
def within (context : String) (f : Failure) : Failure := { f with context := context :: f.context }

/-- A refused write as a failure. -/
def ofViolation (v : Violation) : Failure := ⟨Fault.ofEngine v.report, []⟩

/-- The lines of the failure's report, outermost first. -/
def chain (f : Failure) : List String :=
  f.context ++ f.fault.message?.toList ++
    match f.fault with
    | .engine error => [error.codeLine]
    | .nulInName _ => f.fault.message?.toList
    | _ => []

end Failure

end FuzzLedger
