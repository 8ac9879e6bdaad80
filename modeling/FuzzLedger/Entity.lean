/-!
# The eight kinds of stored rows

A campaign ledger keeps eight tables.  `Entity` names them, and with each kind come the words
that show outside: the name used in data (`name`), the words used in messages (`display`), the
table and its identifier column.

References point from a child to its parents (`Entity.foreignKeys`, each with what becomes of the
child when the parent is deleted), and `Entity.rank` grows along them
(`arch`, `user` < `host`, `opcode` < `batch` < `testSuccess`, `testFailure` < `testFailureState`),
so a chain of references has at most four steps.
-/

set_option autoImplicit false

namespace FuzzLedger

/-- The kinds of rows, in the order in which they are listed everywhere. -/
inductive Entity where
  | user
  | arch
  | host
  | batch
  | opcode
  | testSuccess
  | testFailure
  | testFailureState
  deriving DecidableEq, Repr, Inhabited

namespace Entity

/-- All kinds, in listing order. -/
def all : List Entity :=
  [.user, .arch, .host, .batch, .opcode, .testSuccess, .testFailure, .testFailureState]

theorem mem_all (e : Entity) : e ∈ all := by cases e <;> decide

/-- The name of the kind in data. -/
def name : Entity → String
  | .user => "user"
  | .arch => "arch"
  | .host => "host"
  | .batch => "batch"
  | .opcode => "opcode"
  | .testSuccess => "test_success"
  | .testFailure => "test_failure"
  | .testFailureState => "test_failure_state"

/-- The words for the kind in messages. -/
def display : Entity → String
  | .user => "user"
  | .arch => "arch"
  | .host => "host"
  | .batch => "batch"
  | .opcode => "opcode"
  | .testSuccess => "test success"
  | .testFailure => "test failure"
  | .testFailureState => "test failure state"

/-- The table that holds the rows of the kind. -/
def table : Entity → String
  | .user => "users"
  | .arch => "arches"
  | .host => "hosts"
  | .batch => "batches"
  | .opcode => "opcodes"
  | .testSuccess => "test_successes"
  | .testFailure => "test_failures"
  | .testFailureState => "test_failure_states"

/-- The identifier column of the table. -/
def idColumn : Entity → String
  | .user => "user_id"
  | .arch => "arch_id"
  | .host => "host_id"
  | .batch => "batch_id"
  | .opcode => "opcode_id"
  | .testSuccess => "success_id"
  | .testFailure => "failure_id"
  | .testFailureState => "state_id"

/-- The kind with the given name in data. -/
def ofName? (s : String) : Option Entity := all.find? (fun e => e.name == s)

theorem ofName?_name (e : Entity) : ofName? e.name = some e := by cases e <;> decide

/-- The number of reference steps that may lie below a row of the kind. -/
def rank : Entity → Nat
  | .user => 0
  | .arch => 0
  | .host => 1
  | .opcode => 1
  | .batch => 2
  | .testSuccess => 3
  | .testFailure => 3
  | .testFailureState => 4

end Entity

/-! ## References -/

/-- What becomes of a row when a row that it refers to is deleted. -/
inductive DeleteAction where
  /-- It is deleted too. -/
  | cascade
  /-- It keeps the other from being deleted. -/
  | refuse
  deriving DecidableEq, Repr

/-- A column whose values are identifiers of rows. -/
structure ForeignKey where
  column : String
  parent : Entity
  onDelete : DeleteAction
  deriving DecidableEq, Repr

namespace Entity

/-- The columns that refer to other rows. -/
def foreignKeys : Entity → List ForeignKey
  | .user => []
  | .arch => []
  | .host => [⟨"arch_id", .arch, .cascade⟩]
  | .batch => [⟨"testing_host_id", .host, .cascade⟩, ⟨"user_id", .user, .cascade⟩]
  | .opcode => [⟨"arch_id", .arch, .cascade⟩]
  | .testSuccess => [⟨"batch_id", .batch, .cascade⟩, ⟨"opcode_id", .opcode, .cascade⟩]
  | .testFailure => [⟨"batch_id", .batch, .cascade⟩, ⟨"opcode_id", .opcode, .cascade⟩]
  | .testFailureState => [⟨"failure_id", .testFailure, .cascade⟩]

theorem rank_lt_of_mem_foreignKeys {e : Entity} {key : ForeignKey} (h : key ∈ e.foreignKeys) :
    key.parent.rank < e.rank := by
  revert key
  cases e <;> decide

/-- The columns for anything else. -/
def dataColumns : Entity → List String
  | .user => ["username"]
  | .arch => ["name"]
  | .host => ["hostname"]
  | .batch => ["fuzzer_host", "submitted_at"]
  | .opcode => ["name"]
  | .testSuccess => ["count"]
  | .testFailure => ["pretty", "arguments"]
  | .testFailureState => ["location", "expected_value", "actual_value"]

/-- The names of the table's columns. -/
def columns (e : Entity) : List String :=
  e.idColumn :: (e.foreignKeys.map ForeignKey.column ++ e.dataColumns)

end Entity

end FuzzLedger
