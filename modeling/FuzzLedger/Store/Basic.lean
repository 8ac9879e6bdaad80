import FuzzLedger.Fault

/-!
# The tables

A `Table` keeps the rows of one kind in ascending order of their identifiers, together with the
largest identifier it ever gave out (`last`), so that identifiers are not used again after their
rows are gone.  A `Store` has one table for each kind.  Texts and tables may be of any size: that
a disk fills up, or that the engine takes no text of a thousand million octets, is outside of the
model.

`Store.table` and `Store.setTable` address the tables by kind; `table_setTable_same` and
`table_setTable_ne` say all there is to say about them, and `Store.ext_table` reduces equality of
stores to equality of tables.
-/

set_option autoImplicit false

namespace FuzzLedger

/-! ## One table -/

/-- The rows of a kind, by ascending identifier, and the largest identifier given out so far. -/
structure Table (e : Entity) where
  rows : List (Row e) := []
  last : Int := 0
  deriving DecidableEq

namespace Table

variable {e : Entity}

/-- Puts a row after all rows with smaller or equal identifiers. -/
def place (r : Row e) : List (Row e) → List (Row e)
  | [] => [r]
  | q :: rows => if Row.id e r < Row.id e q then r :: q :: rows else q :: place r rows

/-- Adds a row; its identifier counts as given out. -/
def add (t : Table e) (r : Row e) : Table e := ⟨place r t.rows, max t.last (Row.id e r)⟩

/-- The row with an identifier. -/
def find? (t : Table e) (id : Int) : Option (Row e) := t.rows.find? (fun r => Row.id e r == id)

/-- Whether some row has the identifier. -/
def has (t : Table e) (id : Int) : Bool := t.rows.any (fun r => Row.id e r == id)

/-- The row with a name that only one row may have. -/
def findNamed? (t : Table e) (name : TextCell) : Option (Row e) :=
  t.rows.find? (fun r => Row.uniqueName? e r == some name)

end Table

/-! ## All tables -/

/-- The contents of a ledger. -/
structure Store where
  users : Table .user := {}
  arches : Table .arch := {}
  hosts : Table .host := {}
  batches : Table .batch := {}
  opcodes : Table .opcode := {}
  successes : Table .testSuccess := {}
  failures : Table .testFailure := {}
  states : Table .testFailureState := {}
  deriving DecidableEq

namespace Store

/-- A ledger without rows. -/
def empty : Store := {}

/-- The table of a kind. -/
def table (s : Store) : (e : Entity) → Table e
  | .user => s.users
  | .arch => s.arches
  | .host => s.hosts
  | .batch => s.batches
  | .opcode => s.opcodes
  | .testSuccess => s.successes
  | .testFailure => s.failures
  | .testFailureState => s.states

/-- The store with another table for a kind. -/
def setTable (s : Store) : (e : Entity) → Table e → Store
  | .user, t => { s with users := t }
  | .arch, t => { s with arches := t }
  | .host, t => { s with hosts := t }
  | .batch, t => { s with batches := t }
  | .opcode, t => { s with opcodes := t }
  | .testSuccess, t => { s with successes := t }
  | .testFailure, t => { s with failures := t }
  | .testFailureState, t => { s with states := t }

@[simp] theorem table_setTable_same (s : Store) (e : Entity) (t : Table e) :
    (s.setTable e t).table e = t := by
  cases e <;> rfl

theorem table_setTable_ne (s : Store) {e f : Entity} (t : Table e) (h : f ≠ e) :
    (s.setTable e t).table f = s.table f := by
  cases e <;> cases f <;> first | rfl | exact absurd rfl h

/-- Stores with the same tables are the same. -/
theorem ext_table {s t : Store} (h : ∀ e, s.table e = t.table e) : s = t := by
  obtain ⟨⟩ := s
  obtain ⟨⟩ := t
  have hu := h .user
  have ha := h .arch
  have hh := h .host
  have hb := h .batch
  have ho := h .opcode
  have hs := h .testSuccess
  have hf := h .testFailure
  have ht := h .testFailureState
  simp only [table] at hu ha hh hb ho hs hf ht
  subst hu ha hh hb ho hs hf ht
  rfl

/-- The rows of a kind, by ascending identifier. -/
def rows (s : Store) (e : Entity) : List (Row e) := (s.table e).rows

/-- The row that a kind and an identifier name. -/
def find? (s : Store) (e : Entity) (id : Int) : Option (Row e) := (s.table e).find? id

/-- Whether the named row exists. -/
def has (s : Store) (ref : RowRef) : Bool := (s.table ref.1).has ref.2

end Store

end FuzzLedger
