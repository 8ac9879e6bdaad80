/-!
# Length limits of text fields

Every bounded text column has a limit, counted in Unicode scalar values.  `Limit.check` is the
test that the writing operations apply to each field before anything is stored;
`Limit.columnLength` is the count that the tables themselves apply, which stops at the first NUL.
-/

set_option autoImplicit false

namespace FuzzLedger

/-- A field whose text has more characters than its limit allows. -/
structure TooLong where
  field : String
  length : Nat
  limit : Nat
  deriving DecidableEq, Repr

/-- The wording of an over-long field. -/
def TooLong.message (t : TooLong) : String :=
  s!"{t.field} is {t.length} characters long, limit is {t.limit}"

namespace Limit

def username : Nat := 64
def archName : Nat := 64
def hostname : Nat := 128
def fuzzerHost : Nat := 128
def opcodeName : Nat := 128
def failurePretty : Nat := 256
def stateLocation : Nat := 128
def stateValue : Nat := 256

/-- The limits by the names under which they are listed. -/
def listing : List (String × Nat) :=
  [("username", username), ("arch_name", archName), ("hostname", hostname),
   ("fuzzer_host", fuzzerHost), ("opcode_name", opcodeName), ("failure_pretty", failurePretty),
   ("state_location", stateLocation), ("state_value", stateValue)]

/-- Accepts a text of at most `limit` characters. -/
def check (field value : String) (limit : Nat) : Except TooLong Unit :=
  if value.length ≤ limit then .ok () else .error ⟨field, value.length, limit⟩

theorem check_eq_ok_iff {field value : String} {limit : Nat} :
    check field value limit = .ok () ↔ value.length ≤ limit := by
  unfold check; split <;> simp_all

theorem check_eq_error {field value : String} {limit : Nat} (h : limit < value.length) :
    check field value limit = .error ⟨field, value.length, limit⟩ := by
  unfold check; rw [if_neg (by omega)]

/-- The number of characters before the first NUL: the length that a column's own bound counts. -/
def columnLength (value : String) : Nat :=
  (value.toList.takeWhile (· ≠ '\x00')).length

theorem columnLength_le (value : String) : columnLength value ≤ value.length := by
  unfold columnLength
  exact Nat.le_trans (List.takeWhile_sublist _).length_le (Nat.le_of_eq String.length_toList)

end Limit

end FuzzLedger
