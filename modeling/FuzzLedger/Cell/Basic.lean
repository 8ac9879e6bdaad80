import FuzzLedger.Cell.Numeral
import FuzzLedger.Limit

/-!
# The contents of columns

A `Cell` is what a caller may put into a column.  A column keeps it in a form of its own: a text
column writes numbers as texts (`Cell.toText?`), an integer column takes texts as numbers where it
can and numbers as whole ones where they are (`Cell.toNumber?`).  Octets stay as they are in either.
-/

set_option autoImplicit false

namespace FuzzLedger

/-- What may be put into a column. -/
inductive Cell where
  | null
  | int (n : Int)
  | real (x : Double)
  | text (s : String)
  | octets (bytes : List UInt8)
  deriving DecidableEq, Repr

/-! ## Text columns -/

/-- What a text column keeps. -/
inductive TextCell where
  | text (s : String)
  | octets (bytes : List UInt8)
  deriving DecidableEq, Repr

instance : Coe String TextCell := ⟨.text⟩

namespace TextCell

/-- The length that a column's own bound counts. -/
def columnLength : TextCell → Nat
  | .text s => Limit.columnLength s
  | .octets bytes => bytes.length

/-- The order of a text column: texts by their characters, then octets. -/
def before : TextCell → TextCell → Bool
  | .text s, .text t => s < t
  | .text _, .octets _ => true
  | .octets _, .text _ => false
  | .octets a, .octets b => a.map UInt8.toNat < b.map UInt8.toNat

end TextCell

/-- What a text column keeps of a cell, if there is something in it. -/
def Cell.toText? : Cell → Option TextCell
  | .null => none
  | .int n => some (.text (toString n))
  | .real x => some (.text x.text)
  | .text s => some (.text s)
  | .octets bytes => some (.octets bytes)

/-! ## Integer columns -/

/-- What an integer column keeps. -/
inductive NumberCell where
  | int (n : Int)
  | real (x : Double)
  /-- Octets, or a text that is no number. -/
  | other (cell : TextCell)
  deriving DecidableEq, Repr

namespace NumberCell

/-- A double in an integer column is a whole number if it can be one. -/
def ofDouble (x : Double) : NumberCell :=
  match x.whole? with
  | some n => .int n
  | none => .real x

/-- A text in an integer column is a number if it can be one. -/
def ofText (s : String) : NumberCell :=
  match Numeral.ofText? s with
  | none => .other (.text s)
  | some numeral =>
    match numeral.plain? with
    | some n => .int n
    | none => ofDouble numeral.toDouble

/-- The whole number in an integer column. -/
def int? : NumberCell → Option Int
  | .int n => some n
  | _ => none

end NumberCell

/-- What an integer column keeps of a cell, if there is something in it. -/
def Cell.toNumber? : Cell → Option NumberCell
  | .null => none
  | .int n => some (.int n)
  | .real x => some (.ofDouble x)
  | .text s => some (.ofText s)
  | .octets bytes => some (.other (.octets bytes))

end FuzzLedger
