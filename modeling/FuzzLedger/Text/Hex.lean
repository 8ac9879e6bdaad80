/-!
# Hexadecimal digits

The digits of escapes: `hexValue?` reads one in either case, `hexDigits` writes a number in lower
case.
-/

set_option autoImplicit false

namespace FuzzLedger.Text

/-- The value of a hexadecimal digit. -/
def hexValue? (c : Char) : Option Nat :=
  if '0' ≤ c ∧ c ≤ '9' then some (c.toNat - 48)
  else if 'a' ≤ c ∧ c ≤ 'f' then some (c.toNat - 87)
  else if 'A' ≤ c ∧ c ≤ 'F' then some (c.toNat - 55)
  else none

/-- The lower-case hexadecimal digits of a number. -/
def hexDigits (n : Nat) : List Char := Nat.toDigits 16 n

end FuzzLedger.Text
