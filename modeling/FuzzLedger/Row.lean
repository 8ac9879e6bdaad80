import FuzzLedger.Cell.Basic
import FuzzLedger.Entity
import FuzzLedger.Timestamp.Basic

/-!
# Rows

One structure for the rows of each kind, and `Row e` for the rows of kind `e`.  What the tables
need to know of a row is given for all kinds at once: its identifier (`Row.id`), the rows it refers
to (`Row.references`), the name that no other row of its kind may have (`Row.uniqueName?`) and its
bounded texts (`Row.boundedTexts`).

Rows are stored in a wider form than they are read.  A text column may hold octets, so the rows with
texts are given for any type of texts: `User TextCell` is stored, `User` is read.  A batch keeps the
text of its submission time (`StoredBatch`), a success whatever its count was given as
(`StoredSuccess`); callers get the read forms `Batch` and `TestSuccess`.
-/

set_option autoImplicit false

namespace FuzzLedger

/-! ## The kinds of rows -/

/-- A submitter. -/
structure User (τ : Type := String) where
  id : Int
  username : τ
  deriving DecidableEq, Repr

/-- An instruction-set architecture under test. -/
structure Arch (τ : Type := String) where
  id : Int
  name : τ
  deriving DecidableEq, Repr

/-- A machine that runs tests. -/
structure Host (τ : Type := String) where
  id : Int
  hostname : τ
  archId : Int
  deriving DecidableEq, Repr

/-- A submission, with the stored text of its time. -/
structure StoredBatch where
  id : Int
  fuzzerHost : TextCell
  testingHostId : Int
  userId : Int
  submittedAt : TextCell
  deriving DecidableEq, Repr

/-- An opcode of an architecture. -/
structure Opcode (τ : Type := String) where
  id : Int
  name : τ
  archId : Int
  deriving DecidableEq, Repr

/-- How often an opcode passed in a batch, with the stored count. -/
structure StoredSuccess where
  id : Int
  batchId : Int
  opcodeId : Int
  count : NumberCell
  deriving DecidableEq, Repr

/-- A failing test case. -/
structure TestFailure (τ : Type := String) where
  id : Int
  batchId : Int
  opcodeId : Int
  pretty : τ
  arguments : τ
  deriving DecidableEq, Repr

/-- One place in which the outcome of a failing test case differs. -/
structure TestFailureState (τ : Type := String) where
  id : Int
  failureId : Int
  location : τ
  expected : τ
  actual : τ
  deriving DecidableEq, Repr

/-- A submission as it is read. -/
structure Batch where
  id : Int
  fuzzerHost : String
  testingHostId : Int
  userId : Int
  submittedAt : Timestamp
  deriving DecidableEq

/-- A success as it is read. -/
structure TestSuccess where
  id : Int
  batchId : Int
  opcodeId : Int
  count : Int32
  deriving DecidableEq

/-! ## Rows still without an identifier -/

/-- What a caller says of a new batch. -/
structure NewBatch where
  fuzzerHost : String
  testingHostId : Int
  userId : Int
  deriving DecidableEq, Repr

/-- What a caller says of a new failure. -/
structure NewTestFailure where
  batchId : Int
  opcodeId : Int
  pretty : String
  arguments : String
  deriving DecidableEq, Repr

/-- What a caller says of a new failure state. -/
structure NewTestFailureState where
  failureId : Int
  location : String
  expected : String
  actual : String
  deriving DecidableEq, Repr

/-! ## Rows of any kind -/

/-- The stored rows of a kind. -/
@[reducible] def Row : Entity → Type
  | .user => User TextCell
  | .arch => Arch TextCell
  | .host => Host TextCell
  | .batch => StoredBatch
  | .opcode => Opcode TextCell
  | .testSuccess => StoredSuccess
  | .testFailure => TestFailure TextCell
  | .testFailureState => TestFailureState TextCell

/-- A row named by its kind and identifier. -/
abbrev RowRef := Entity × Int

/-- A text column with its limit and what is in it. -/
structure BoundedText (τ : Type := String) where
  column : String
  limit : Nat
  text : τ
  deriving DecidableEq, Repr

namespace Row

instance decEq : (e : Entity) → DecidableEq (Row e)
  | .user => inferInstanceAs (DecidableEq (User TextCell))
  | .arch => inferInstanceAs (DecidableEq (Arch TextCell))
  | .host => inferInstanceAs (DecidableEq (Host TextCell))
  | .batch => inferInstanceAs (DecidableEq StoredBatch)
  | .opcode => inferInstanceAs (DecidableEq (Opcode TextCell))
  | .testSuccess => inferInstanceAs (DecidableEq StoredSuccess)
  | .testFailure => inferInstanceAs (DecidableEq (TestFailure TextCell))
  | .testFailureState => inferInstanceAs (DecidableEq (TestFailureState TextCell))

/-- The identifier of a row. -/
def id : (e : Entity) → Row e → Int
  | .user, r => User.id r
  | .arch, r => Arch.id r
  | .host, r => Host.id r
  | .batch, r => StoredBatch.id r
  | .opcode, r => Opcode.id r
  | .testSuccess, r => StoredSuccess.id r
  | .testFailure, r => TestFailure.id r
  | .testFailureState, r => TestFailureState.id r

/-- What stands in the columns that refer to other rows, in the order of `Entity.foreignKeys`. -/
def keys : (e : Entity) → Row e → List Int
  | .user, _ => []
  | .arch, _ => []
  | .host, r => [Host.archId r]
  | .batch, r => [StoredBatch.testingHostId r, StoredBatch.userId r]
  | .opcode, r => [Opcode.archId r]
  | .testSuccess, r => [StoredSuccess.batchId r, StoredSuccess.opcodeId r]
  | .testFailure, r => [TestFailure.batchId r, TestFailure.opcodeId r]
  | .testFailureState, r => [TestFailureState.failureId r]

/-- The columns of a row that refer to other rows, each with the identifier in it. -/
def links (e : Entity) (r : Row e) : List (ForeignKey × Int) := e.foreignKeys.zip (keys e r)

/-- The rows that a row refers to. -/
def references (e : Entity) (r : Row e) : List RowRef :=
  (links e r).map fun link => (link.1.parent, link.2)

/-- The rows that a row refers to through the columns of which a delete action is said. -/
def referencesOn (action : DeleteAction) (e : Entity) (r : Row e) : List RowRef :=
  ((links e r).filter fun link => link.1.onDelete == action).map fun link =>
    (link.1.parent, link.2)

/-- The references kind by kind. -/
theorem references_eq (e : Entity) (r : Row e) :
    references e r =
      match e, r with
      | .user, _ => []
      | .arch, _ => []
      | .host, r => [(.arch, Host.archId r)]
      | .batch, r => [(.host, StoredBatch.testingHostId r), (.user, StoredBatch.userId r)]
      | .opcode, r => [(.arch, Opcode.archId r)]
      | .testSuccess, r => [(.batch, StoredSuccess.batchId r), (.opcode, StoredSuccess.opcodeId r)]
      | .testFailure, r => [(.batch, TestFailure.batchId r), (.opcode, TestFailure.opcodeId r)]
      | .testFailureState, r => [(.testFailure, TestFailureState.failureId r)] := by
  cases e <;> rfl

/-- A row refers to another through a column that is one of the table's. -/
theorem exists_foreignKey_of_mem_references {e : Entity} {r : Row e} {ref : RowRef}
    (h : ref ∈ references e r) : ∃ key ∈ e.foreignKeys, key.parent = ref.1 := by
  obtain ⟨⟨key, id⟩, hlink, rfl⟩ := List.mem_map.1 h
  exact ⟨key, (List.of_mem_zip hlink).1, rfl⟩

/-- References lead to kinds of smaller rank. -/
theorem rank_lt_of_mem_references {e : Entity} {r : Row e} {p : Entity} {i : Int}
    (h : (p, i) ∈ references e r) : p.rank < e.rank := by
  obtain ⟨key, hkey, rfl⟩ := exists_foreignKey_of_mem_references h
  exact Entity.rank_lt_of_mem_foreignKeys hkey

/-- The name that no other row of the kind may have. -/
def uniqueName? : (e : Entity) → Row e → Option TextCell
  | .user, r => some (User.username r)
  | .arch, r => some (Arch.name r)
  | .host, r => some (Host.hostname r)
  | .batch, _ => none
  | .opcode, _ => none
  | .testSuccess, _ => none
  | .testFailure, _ => none
  | .testFailureState, _ => none

/-- The bounded texts of a row, in the order of its columns. -/
def boundedTexts : (e : Entity) → Row e → List (BoundedText TextCell)
  | .user, r => [⟨"username", Limit.username, User.username r⟩]
  | .arch, r => [⟨"name", Limit.archName, Arch.name r⟩]
  | .host, r => [⟨"hostname", Limit.hostname, Host.hostname r⟩]
  | .batch, r => [⟨"fuzzer_host", Limit.fuzzerHost, StoredBatch.fuzzerHost r⟩]
  | .opcode, r => [⟨"name", Limit.opcodeName, Opcode.name r⟩]
  | .testSuccess, _ => []
  | .testFailure, r => [⟨"pretty", Limit.failurePretty, TestFailure.pretty r⟩]
  | .testFailureState, r =>
    [⟨"location", Limit.stateLocation, TestFailureState.location r⟩,
     ⟨"expected_value", Limit.stateValue, TestFailureState.expected r⟩,
     ⟨"actual_value", Limit.stateValue, TestFailureState.actual r⟩]

end Row

/-- The column whose values differ from row to row, for the kinds that have one. -/
def Entity.uniqueColumn : Entity → String
  | .user => "username"
  | .arch => "name"
  | .host => "hostname"
  | e => e.idColumn

end FuzzLedger
