import FuzzLedger.Json.Tree

/-!
# Reading typed values from trees

A reader takes a tree in the order of its text and stops at the first fault, be it of the text or
of shape.  Records are described by their fields (`Field`): a record may be written as an object,
with its keys in any order and unknown keys passed over, or as an array of its fields in the order
of declaration.

There are two ways to come to a tree (`Source`).  Read straight from the text, a tree may still hold
faults of the text, and an array that goes on after the last field is one.  Taken from a value that
was read in full before, it holds none, and such an array has the wrong length.
-/

set_option autoImplicit false

namespace FuzzLedger.Json

/-- Where a tree comes from. -/
inductive Source where
  | text
  | buffered
  deriving DecidableEq, Repr

/-- The outcome of reading. -/
abbrev Result (α : Type) := Except Fault α

/-- A reader: where the tree comes from, how many more levels it may open, and the tree. -/
abbrev Reader (α : Type) := Source → Nat → Tree → Result α

/-! ## Single values -/

/-- What stands in a place, for a message that it should be something else. -/
def Tree.found : Tree → Result Found
  | .null => .ok .null
  | .bool b => .ok (.bool b)
  | .number (some (.int n)) => .ok (.int n)
  | .number (some (.float x)) => .ok (.float x)
  | .number none => .error (.text .wrong)
  | .text (some s) => .ok (.text s)
  | .text none => .error (.text .wrong)
  | .seq _ => .ok .seq
  | .map _ => .ok .map
  | .missing => .error (.text .early)
  | .brokenText b => .error (.text b.read)
  | .broken b => .error (.text b.read)

/-- The fault of a tree in the place of something else. -/
def Tree.unexpected {α : Type} (expected : String) (t : Tree) : Result α :=
  match t.found with
  | .ok found => .error (.wrongType found expected)
  | .error fault => .error fault

/-- A string. -/
def readText : Reader String := fun _ _ t =>
  match t with
  | .text (some s) => .ok s
  | t => t.unexpected "a string"

/-- A whole number from `low` to `high`, called `expected` in messages. -/
def readRange (low high : Int) (expected : String) : Reader Int := fun _ _ t =>
  match t with
  | .number (some (.int n)) => if low ≤ n ∧ n ≤ high then .ok n else .error (.outOfRange n expected)
  | t => t.unexpected expected

/-- A signed 64-bit number. -/
def readInt64 : Reader Int := readRange Int64.minValue.toInt Int64.maxValue.toInt "i64"

/-- A signed 32-bit number. -/
def readInt32 : Reader Int32 := fun source room t =>
  (readRange Int32.minValue.toInt Int32.maxValue.toInt "i32" source room t).map Int32.ofInt

/-- An unsigned 64-bit number. -/
def readSize : Reader Nat := fun source room t =>
  (readRange 0 (UInt64.size - 1) "usize" source room t).map Int.toNat

/-- Goes on unless there is a fault of the text. -/
def proceed : Option Stop → Result Unit
  | none => .ok ()
  | some stop => .error (.text stop)

/-- Opens a level of nesting; gives the room inside it. -/
def enter : Nat → Result Nat
  | 0 => .error (.text .wrong)
  | room + 1 => .ok room

/-! ## Lists -/

/-- All elements up to the closing bracket. -/
def readItemsWith {α : Type} (read : Tree → Result α) : Items → Result (List α)
  | .done => .ok []
  | .more head tail => do
    let a ← read head
    let rest ← readItemsWith read tail
    return a :: rest
  | .unclosed stop => .error (.text stop)
  | .dangling stop => .error (.text stop)

/-- An array of values of one kind. -/
def readList {α : Type} (read : Reader α) : Reader (List α) := fun source room t =>
  match t with
  | .seq items => do
    let room ← enter room
    readItemsWith (read source room) items
  | t => t.unexpected "a sequence"

/-! ## Records -/

/-- A field of a record: its key, its values, and the value that stands for a missing one. -/
structure Field where
  key : String
  Value : Type
  read : Reader Value
  absent : Option Value := none

/-- A value for each field. -/
@[reducible] def Values : List Field → Type
  | [] => Unit
  | f :: fields => f.Value × Values fields

/-- The values met so far. -/
@[reducible] def Slots : List Field → Type
  | [] => Unit
  | f :: fields => Option f.Value × Slots fields

/-- No value met yet. -/
def Slots.empty : (fields : List Field) → Slots fields
  | [] => ()
  | _ :: fields => (none, Slots.empty fields)

/-- The values of a record whose last member has been read; the first missing field is the fault. -/
def Slots.finish : (fields : List Field) → Slots fields → Result (Values fields)
  | [], _ => .ok ()
  | f :: fields, (slot, slots) => do
    let value ← match slot.or f.absent with
      | some value => .ok value
      | none => .error (.missingField f.key)
    let rest ← Slots.finish fields slots
    return (value, rest)

/-- Reads the value of a key into its slot; `none` if no field has the key. -/
def Slots.put (source : Source) (room : Nat) (key : String) (t : Tree) :
    (fields : List Field) → Slots fields → Result (Option (Slots fields))
  | [], _ => .ok none
  | f :: fields, (slot, slots) =>
    if key = f.key then
      if slot.isSome then .error (.duplicateField key)
      else do
        let value ← f.read source room t
        return some (some value, slots)
    else do
      match ← Slots.put source room key t fields slots with
      | some slots => return some (slot, slots)
      | none => return none

/-- The members of a record written as an object. -/
def readMembersWith (source : Source) (room : Nat) (fields : List Field) :
    Slots fields → Members → Result (Slots fields)
  | slots, .done => .ok slots
  | _, .unclosed stop => .error (.text stop)
  | _, .dangling stop => .error (.text stop)
  | _, .brokenKey b => .error (.text b.read)
  | _, .more none _ _ => .error (.text .wrong)
  | slots, .more (some key) value tail => do
    match ← Slots.put source room key value fields slots with
    | some slots => readMembersWith source room fields slots tail
    | none =>
      proceed value.passStop
      readMembersWith source room fields slots tail

/-- The fields of a record written as an array.  `count` fields have been read before; `expected`
names the record with its number of fields. -/
def readPositions (source : Source) (room : Nat) (expected : String) :
    (fields : List Field) → Nat → Items → Result (Values fields × Items)
  | [], _, items => .ok ((), items)
  | f :: fields, count, .more head tail => do
    let value ← f.read source room head
    let (rest, items) ← readPositions source room expected fields (count + 1) tail
    return ((value, rest), items)
  | _ :: _, _, .unclosed stop => .error (.text stop)
  | _ :: _, _, .dangling stop => .error (.text stop)
  | f :: fields, count, .done =>
    match f.absent with
    | none => .error (.wrongLength count expected)
    | some value => do
      let (rest, items) ← readPositions source room expected fields (count + 1) .done
      return ((value, rest), items)

/-- The number of elements before the closing bracket. -/
def Items.count : Items → Nat
  | .more _ tail => tail.count + 1
  | _ => 0

/-- Whatever follows the last field of a record written as an array is a fault. -/
def closeItems (source : Source) (read : Nat) : Items → Result Unit
  | .done => .ok ()
  | .unclosed stop => .error (.text stop)
  | .dangling _ => .error (.text .wrong)
  | .more _ tail =>
    match source with
    | .text => .error (.text .wrong)
    | .buffered => .error (.wrongLength (read + 1 + tail.count) s!"{read} elements in sequence")

/-- A record in either form, called `what` in messages. -/
def readRecord (what : String) (fields : List Field) : Reader (Values fields) :=
  fun source room t =>
    match t with
    | .map members => do
      let room ← enter room
      let slots ← readMembersWith source room fields (Slots.empty fields) members
      Slots.finish fields slots
    | .seq items => do
      let room ← enter room
      let expected := s!"{what} with {fields.length} elements"
      let (values, rest) ← readPositions source room expected fields 0 items
      closeItems source fields.length rest
      return values
    | t => t.unexpected what

/-! ## Whole texts -/

/-- Reads a text that holds one value and nothing else. -/
def readDocument {α : Type} (read : Reader α) (text : String) : Result α := do
  let document := Document.ofText text
  let value ← read .text maxLevels document.root
  if document.trailing then .error (.text .wrong) else .ok value

/-! ## Fields of common kinds -/

@[reducible] def textField (key : String) : Field := { key, Value := String, read := readText }

@[reducible] def idField (key : String) : Field := { key, Value := Int, read := readInt64 }

@[reducible] def countField (key : String) : Field := { key, Value := Int32, read := readInt32 }

@[reducible] def sizeField (key : String) : Field := { key, Value := Nat, read := readSize }

/-- A list that may be left out. -/
@[reducible] def listField {α : Type} (key : String) (read : Reader α) : Field :=
  { key, Value := List α, read := readList read, absent := some [] }

end FuzzLedger.Json
