/-!
# Batch reports

A fuzzing client submits one `Report` per run: the machine that made the inputs, the machine that
ran them, who submits it, for which architecture, and the outcome for each opcode.  A `Summary`
says what recording it stored.
-/

set_option autoImplicit false

namespace FuzzLedger

/-- One place in which a failing test case differs from what was expected. -/
structure StateDiff where
  location : String
  expected : String
  actual : String
  deriving DecidableEq, Repr

/-- The outcome of an opcode's tests: a count of passes, or one failing test case. -/
inductive Entry where
  | success (opcode : String) (count : Int32)
  | failure (opcode pretty arguments : String) (state : List StateDiff)
  deriving DecidableEq

/-- The opcode that an entry is about. -/
def Entry.opcode : Entry → String
  | .success opcode _ => opcode
  | .failure opcode _ _ _ => opcode

/-- A submitted batch. -/
structure Report where
  fuzzingHost : String
  testingHost : String
  user : String
  arch : String
  entries : List Entry
  deriving DecidableEq

/-- The batch that a report was recorded as, and how many rows hang off it. -/
structure Summary where
  batchId : Int
  successes : Nat
  failures : Nat
  states : Nat
  deriving DecidableEq, Repr

end FuzzLedger
