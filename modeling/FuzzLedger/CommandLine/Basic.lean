import FuzzLedger.Entity

/-!
# Commands

What can be asked of the program on its command line: a `Command`, and with it an `Invocation`,
which adds the options that go with any command.
-/

set_option autoImplicit false

namespace FuzzLedger

/-- How results are printed. -/
inductive OutputFormat where
  | text
  | json
  deriving DecidableEq, Repr

/-- The rows that a command can create. -/
inductive CreateCommand where
  | user (username : String)
  | arch (name : String)
  | host (hostname arch : String)
  | opcode (name arch : String)
  | batch (fuzzerHost testingHost user : String)
  | success (batch opcode : Int) (count : Int32)
  | failure (batch opcode : Int) (pretty arguments : String)
  | state (failure : Int) (location expected actual : String)
  deriving DecidableEq

/-- A command. -/
inductive Command where
  | version
  | init
  | create (row : CreateCommand)
  | showBatch (id : Int)
  | showBatches
  | delete (e : Entity) (id : Int)
  | ingest (files : List String)
  deriving DecidableEq

/-- A command and the options that go with any command. -/
structure Invocation where
  config : Option String := none
  db : Option String := none
  format : Option OutputFormat := none
  command : Command
  deriving DecidableEq

/-- Why arguments are no invocation; asking for help or the version is a reason too. -/
inductive Usage where
  | help
  | version
  /-- Nothing was given where a command is needed. -/
  | helpOnMissing
  | missingCommand
  | invalidCommand
  | unknownArgument
  | invalidValue
  | invalidNumber
  | missingRequired
  | repeated
  | surplusValue
  deriving DecidableEq, Repr

end FuzzLedger
