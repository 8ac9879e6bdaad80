import FuzzLedger.Store.Basic

/-!
# Adding rows

An `Action` works on a store: it answers or fails, and leaves a store in either case.  A row is
added under a given identifier or under the next one of its table, and only if it violates none of
the rules that `Store.violation?` checks, in this order: the limits of its texts, then that no
other row has its identifier, then that no other row has its name, then that the rows it refers to
exist.
-/

set_option autoImplicit false

namespace FuzzLedger

/-- A computation on a store that may fail; what it did before failing stays. -/
abbrev Action (α : Type) := EStateM Failure Store α

namespace Action

/-- Fails for a cause. -/
def fail {α : Type} (fault : Fault) : Action α := throw ⟨fault, []⟩

/-- Puts the failure of an action into a context. -/
def within {α : Type} (context : String) (a : Action α) : Action α := fun s =>
  match a s with
  | .ok x s => .ok x s
  | .error f s => .error (f.within context) s

/-- Fails if a text is longer than its limit. -/
def checkLength (field value : String) (limit : Nat) : Action Unit :=
  match Limit.check field value limit with
  | .ok _ => pure ()
  | .error t => fail (.tooLong t)

end Action

namespace Store

/-- The largest identifier. -/
def maxId : Int := Int64.maxValue.toInt

/-- The next identifier of a table, while there is one. -/
def nextId? (s : Store) (e : Entity) : Option Int :=
  if (s.table e).last < maxId then some ((s.table e).last + 1) else none

/-- The first text of a row that its column does not take. -/
def overLong? (e : Entity) (r : Row e) : Option Violation :=
  ((Row.boundedTexts e r).find? fun b => b.limit < b.text.columnLength).map
    fun b => .overLong b.column b.limit

/-- Whether another row has the row's name, for kinds whose names differ. -/
def nameTaken (s : Store) (e : Entity) (r : Row e) : Bool :=
  match Row.uniqueName? e r with
  | some name => ((s.table e).findNamed? name).isSome
  | none => false

/-- The first rule that a new row violates. -/
def violation? (s : Store) (e : Entity) (r : Row e) : Option Violation :=
  match overLong? e r with
  | some v => some v
  | none =>
    if s.has (e, Row.id e r) then some (.sameId e)
    else if s.nameTaken e r then some (.sameName e)
    else if (Row.references e r).all s.has then none
    else some .danglingReference

/-- The store with one more row. -/
def add (s : Store) (e : Entity) (r : Row e) : Store := s.setTable e ((s.table e).add r)

/-- The store in which an identifier of a table counts as given out. -/
def spendId (s : Store) (e : Entity) (id : Int) : Store :=
  s.setTable e { s.table e with last := max (s.table e).last id }

end Store

namespace Action

/-- Adds a row, unless it violates a rule. -/
def insert (e : Entity) (r : Row e) : Action Unit := fun s =>
  match s.violation? e r with
  | some v => .error (.ofViolation v) s
  | none => .ok () (s.add e r)

/-- The next identifier of a table. -/
def nextId (e : Entity) : Action Int := fun s =>
  match s.nextId? e with
  | some id => .ok id s
  | none => .error (.ofViolation .full) s

/-- Adds the row that `build` makes of the next identifier. -/
def insertNew (e : Entity) (build : Int → Row e) : Action (Row e) := do
  let id ← nextId e
  insert e (build id)
  return build id

/-- Adds the row that `build` makes of the next identifier, unless a row has its name already.
The identifier counts as given out in either case. -/
def insertIfNewName (e : Entity) (build : Int → Row e) : Action Unit := do
  let id ← nextId e
  fun s =>
    match s.violation? e (build id) with
    | none => .ok () (s.add e (build id))
    | some (.sameName _) => .ok () (s.spendId e id)
    | some v => .error (.ofViolation v) s

end Action

end FuzzLedger
