import FuzzLedger.Report.Record
import FuzzLedger.Store.Delete
import FuzzLedger.Store.Direct
import FuzzLedger.Store.Query

/-!
# Sessions

An `Image` is what a database holds: a schema version, and the tables once the schema exists.
A `Session` works on an image; while a transaction is open it keeps the image from before
(`saved`), to which rolling back, or closing without a commit, returns.

`Session.transact` runs a call in a transaction of its own: if the call fails, the image is what it
was before.

A database is opened by running the `migrations` that it still lacks on a new session
(`Session.migrate`).
-/

set_option autoImplicit false

namespace FuzzLedger

/-- The contents of a database. -/
structure Image where
  version : Int := 0
  tables : Option Store := none
  deriving DecidableEq

/-- The image with another schema version, which has 32 bits; a number that does not fit counts as
zero. -/
def Image.withVersion (image : Image) (version : Int) : Image :=
  { image with
    version := if Int32.minValue.toInt ≤ version ∧ version ≤ Int32.maxValue.toInt then version
      else 0 }

/-- An open database. -/
structure Session where
  image : Image
  /-- The image from before the open transaction, if one is open. -/
  saved : Option Image := none
  deriving DecidableEq

/-- A computation on a session that may fail. -/
abbrev Call (α : Type) := EStateM Failure Session α

namespace Session

/-- Runs an action on the tables.  Without tables the call fails as given. -/
def act {α : Type} (bare : Failure) (a : Action α) : Call α := fun s =>
  match s.image.tables with
  | none => .error bare s
  | some store =>
    match a store with
    | .ok x store => .ok x { s with image := { s.image with tables := some store } }
    | .error f store => .error f { s with image := { s.image with tables := some store } }

/-- Puts the failure of a call into a context. -/
def within {α : Type} (context : String) (call : Call α) : Call α := fun s =>
  match call s with
  | .ok x s => .ok x s
  | .error f s => .error (f.within context) s

/-- The failure of a call that comes to a table that does not exist. -/
def noTable (e : Entity) : Failure := ⟨.engine (.noSuchTable e), []⟩

/-- Reads from the tables; `e` is the first kind that the reading comes to. -/
def query {α : Type} (e : Entity) (read : Store → Except Fault α) : Call α :=
  act (noTable e) fun store =>
    match read store with
    | .ok x => .ok x store
    | .error fault => .error ⟨fault, []⟩ store

/-! ## Transactions -/

/-- Opens a transaction. -/
def startTransaction : Call Unit := fun s =>
  if s.saved.isSome then .error ⟨.engine .nestedTransaction, []⟩ s
  else .ok () { s with saved := some s.image }

/-- Keeps what was done since the transaction was opened. -/
def commit : Call Unit := fun s =>
  if s.saved.isSome then .ok () { s with saved := none }
  else .error ⟨.engine .nothingToCommit, []⟩ s

/-- Undoes what was done since the transaction was opened. -/
def rollback : Call Unit := fun s =>
  match s.saved with
  | some image => .ok () { image, saved := none }
  | none => .error ⟨.engine .nothingToRollBack, []⟩ s

/-- What is left of a session when it is closed: an open transaction is lost. -/
def close (s : Session) : Image := s.saved.getD s.image

/-- Gives up the open transaction, if there is one: all of it is undone. -/
def abandon (s : Session) : Session := { image := s.close }

/-- Runs a call in a transaction of its own, which is given up if the call fails. -/
def transact {α : Type} (call : Call α) : Call α := do
  startTransaction
  fun s =>
    match call s with
    | .ok x s => (do commit; return x : Call α) s
    | .error f s => .error f s.abandon

/-- Runs an action as one statement.  A statement that fails undoes only itself, and an open
transaction goes on; but if it fails because the identifiers have run out, the transaction is given
up. -/
def write {α : Type} (bare : Failure) (a : Action α) : Call α := fun s =>
  match act bare a s with
  | .ok x s => .ok x s
  | .error f s => .error f (if f.fault = .engine .full then s.abandon else s)

/-- Sets the schema version number. -/
def setVersion (version : Int) : Call Unit :=
  modify fun s => { s with image := s.image.withVersion version }

/-- Whether there is a table of the given name; the one that keeps the largest identifiers
counts too. -/
def tableExists (s : Session) (name : String) : Bool :=
  s.image.tables.isSome && (name == "sqlite_sequence" || Entity.all.any fun e => e.table == name)

/-! ## Migrations -/

/-- Creates the tables.  Where they exist, that fails at the first of them. -/
def createTables : Call Unit := fun s =>
  match s.image.tables with
  | none => .ok () { s with image := { s.image with tables := some .empty } }
  | some _ => .error ⟨.schemaExists, []⟩ s

/-- The scripts that lead from each schema version to the next.  Each is a transaction and sets the
version in it; one that fails on the way leaves its transaction open. -/
def migrations : List (Call Unit) :=
  [do startTransaction; createTables; setVersion 1; commit]

/-- Runs the scripts from the schema version of the database on, or refuses it. -/
def migrate : Call Unit := do
  let version := (← get).image.version
  if version < 0 then throw ⟨.invalidVersion version, []⟩
  else if (migrations.length : Int) < version then throw ⟨.newerVersion version, []⟩
  else (migrations.drop version.toNat).forM id

theorem migrate_eq (s : Session) :
    migrate s =
      if s.image.version < 0 then .error ⟨.invalidVersion s.image.version, []⟩ s
      else if (migrations.length : Int) < s.image.version then
        .error ⟨.newerVersion s.image.version, []⟩ s
      else (migrations.drop s.image.version.toNat).forM id s := by
  have hget : (get : Call Session) s = .ok s s := rfl
  simp only [migrate, Bind.bind, EStateM.bind, hget]
  split
  · rfl
  · split <;> rfl

/-- At the newest schema version no script is run. -/
theorem migrate_of_newest {s : Session} (h : s.image.version = migrations.length) :
    migrate s = .ok () s := by
  rw [migrate_eq, h, if_neg (by decide), if_neg (by decide)]
  rfl

end Session

/-! ## Opening -/

/-- The image of a new ledger. -/
def Image.fresh : Image := ⟨Fault.newestVersion, some .empty⟩

/-- What a file holds. -/
inductive FileContent where
  | text (s : String)
  /-- A database.  One that the ledger has made is marked as having a log. -/
  | database (image : Image) (logged : Bool := true)
  /-- Something that is neither a text nor a database. -/
  | bytes
  deriving DecidableEq

/-- Whether a file holds a database that is marked as having a log. -/
def FileContent.isLogged : FileContent → Bool
  | .database _ logged => logged
  | _ => false

/-- The image of a file that is to be opened as a database.  A file that is not there, or holds no
more than one octet, is a database still to be created. -/
def FileContent.image? : Option FileContent → Except Failure Image
  | none => .ok {}
  | some (.text s) => if s.utf8ByteSize ≤ 1 then .ok {} else .error ⟨.engine .notADatabase, []⟩
  | some (.database image _) => .ok image
  | some .bytes => .error ⟨.engine .notADatabase, []⟩

/-- Opens a file as a database.  If its schema cannot be brought up to date, the session is closed
again, and with it goes what a script has left open. -/
def Session.open? (file : Option FileContent) : Except Failure Session := do
  let image ← FileContent.image? file
  match migrate { image } with
  | .ok _ s => return s
  | .error f _ => throw f

/-- Sets the schema version number in the file of a database that is not open. -/
def FileContent.setVersion (file : Option FileContent) (version : Int) :
    Except Failure FileContent := do
  let image ← FileContent.image? file
  return .database (image.withVersion version) (file.any FileContent.isLogged)

end FuzzLedger
