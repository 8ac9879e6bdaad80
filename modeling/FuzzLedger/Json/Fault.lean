import FuzzLedger.Decimal.Shortest
import FuzzLedger.Text.Quoted

/-!
# What can be wrong with a JSON text

A text may stop being JSON (`Stop`), or be JSON of another shape than the one asked for.
`Json.Fault` lists the causes and `Json.Fault.message` holds their wording.
-/

set_option autoImplicit false

namespace FuzzLedger.Json

/-- Why a text is not JSON: it ends too early, or something else stands where it may not. -/
inductive Stop where
  | early
  | wrong
  deriving DecidableEq, Repr

/-- What was met where something else was asked for. -/
inductive Found where
  | null
  | bool (b : Bool)
  | int (n : Int)
  | float (x : Binary64)
  | text (s : String)
  | seq
  | map
  deriving DecidableEq, Repr

def Found.describe : Found → String
  | .null => "null"
  | .bool b => s!"boolean `{b}`"
  | .int n => s!"integer `{n}`"
  | .float x => s!"floating point `{x.text}`"
  | .text s => s!"string {Text.quoted s}"
  | .seq => "sequence"
  | .map => "map"

/-- The reason why a text could not be read. -/
inductive Fault where
  /-- The text is not JSON. -/
  | text (stop : Stop)
  | wrongType (found : Found) (expected : String)
  | outOfRange (n : Int) (expected : String)
  | wrongLength (length : Nat) (expected : String)
  /-- An object that should name one variant has no key or several. -/
  | notSingleKey
  | unknownVariant (name : String) (known : List String)
  | missingField (key : String)
  | duplicateField (key : String)
  /-- A text that should be a timestamp is none. -/
  | badTimestamp
  deriving DecidableEq, Repr

/-- Alternatives in a message: `a`, `b`, … -/
def alternatives : List String → String
  | [] => "there are no variants"
  | [a] => s!"expected `{a}`"
  | [a, b] => s!"expected `{a}` or `{b}`"
  | names => "expected one of " ++ ", ".intercalate (names.map fun a => s!"`{a}`")

/-- The wording of a fault of shape; faults of the text itself have no fixed wording. -/
def Fault.message? : Fault → Option String
  | .text _ => none
  | .badTimestamp => none
  | .wrongType found expected => some s!"invalid type: {found.describe}, expected {expected}"
  | .outOfRange n expected => some s!"invalid value: integer `{n}`, expected {expected}"
  | .wrongLength n expected => some s!"invalid length {n}, expected {expected}"
  | .notSingleKey => some "invalid value: map, expected map with a single key"
  | .unknownVariant name known => some s!"unknown variant `{name}`, {alternatives known}"
  | .missingField key => some s!"missing field `{key}`"
  | .duplicateField key => some s!"duplicate field `{key}`"

end FuzzLedger.Json
