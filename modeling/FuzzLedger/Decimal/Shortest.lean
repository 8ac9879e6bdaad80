import FuzzLedger.Decimal.Binary64

/-!
# The shortest decimal text of a double

`Binary64.shortest` gives the fewest decimal digits that read back as the same double, and of
those the nearest: for one, two, … seventeen digits it tries the two neighbours of the value on
that decimal grid against the interval of reals that round to the value.

`Binary64.text` writes them the way messages show numbers: positionally from `0.00001` up to
sixteen digits before the point, always with a point, and beyond that with a signed exponent.
-/

set_option autoImplicit false

namespace FuzzLedger

namespace Binary64

/-- The decimal number `digits * 10 ^ power`. -/
structure Decimal where
  digits : Nat
  power : Int
  deriving DecidableEq, Repr

/-- `num / den` divided by a power of ten, as a quotient of whole numbers. -/
def overTens (num den : Nat) (power : Int) : Nat × Nat :=
  if power < 0 then (num * Nat.pow 10 power.natAbs, den) else (num, den * Nat.pow 10 power.natAbs)

/-- The reals that round to a double, in quarters of its last unit: lower end, upper end and
whether the ends belong to it. -/
def roundingInterval (x : Binary64) : Nat × Nat × Bool :=
  let below := if x.mantissa = Nat.pow 2 52 ∧ minExponent < x.exponent then 1 else 2
  (4 * x.mantissa - below, 4 * x.mantissa + 2, x.mantissa % 2 == 0)

/-- Whether a decimal number reads back as the double. -/
def readsBack (x : Binary64) (d : Decimal) : Bool :=
  let (lower, upper, closed) := x.roundingInterval
  let exponent := x.exponent - 2
  -- Both sides multiplied up to whole numbers.
  let decimal := d.digits * Nat.pow 10 d.power.toNat * Nat.pow 2 (-exponent).toNat
  let unit := Nat.pow 10 (-d.power).toNat * Nat.pow 2 exponent.toNat
  if closed then lower * unit ≤ decimal && decimal ≤ upper * unit
  else lower * unit < decimal && decimal < upper * unit

/-- The power of ten of the leading digit of `num / den`. -/
def leadingPower (num den : Nat) : Int :=
  let estimate : Int := ((Nat.log2 num : Int) - (Nat.log2 den : Int)) * 30103 / 100000 - 1
  -- The estimate is at most three too small.
  let reached (p : Int) : Bool := let (n, d) := overTens num den p; d ≤ n
  if reached (estimate + 3) then estimate + 3
  else if reached (estimate + 2) then estimate + 2
  else if reached (estimate + 1) then estimate + 1
  else estimate

/-- The nearest decimal number of the given number of digits that reads back, if there is one. -/
def withDigits? (x : Binary64) (lead : Int) (count : Nat) : Option Decimal :=
  let (num, den) := x.toRatio
  let power := lead - (count - 1 : Nat)
  let (n, d) := overTens num den power
  let low : Decimal := ⟨n / d, power⟩
  let high : Decimal := ⟨n / d + 1, power⟩
  let lowNearer := 2 * (n % d) < d ∨ (2 * (n % d) = d ∧ n / d % 2 = 0)
  match x.readsBack low, x.readsBack high with
  | true, true => some (if lowNearer then low else high)
  | true, false => some low
  | false, true => some high
  | false, false => none

/-- The fewest digits that read back, without trailing zeros. -/
def shortest (x : Binary64) : Decimal :=
  if x.isZero then ⟨0, 0⟩
  else
    let (num, den) := x.toRatio
    let lead := leadingPower num den
    let found := ((List.range 17).findSome? fun i => x.withDigits? lead (i + 1)).getD ⟨0, 0⟩
    strip 20 found
where
  /-- Moves trailing zeros of the digits into the power. -/
  strip : Nat → Decimal → Decimal
    | 0, d => d
    | steps + 1, d =>
      if d.digits ≠ 0 ∧ d.digits % 10 = 0 then strip steps ⟨d.digits / 10, d.power + 1⟩ else d

/-- The text of a double. -/
def text (x : Binary64) : String :=
  let d := x.shortest
  let digits := (toString d.digits).toList
  let lead : Int := d.power + digits.length - 1
  let body : List Char :=
    if x.isZero then ['0', '.', '0']
    else if 0 ≤ d.power ∧ lead < 16 then
      digits ++ List.replicate d.power.toNat '0' ++ ['.', '0']
    else if 0 ≤ lead ∧ lead < 16 then
      digits.take (lead.toNat + 1) ++ '.' :: digits.drop (lead.toNat + 1)
    else if -5 ≤ lead ∧ lead < 0 then
      ['0', '.'] ++ List.replicate (lead.natAbs - 1) '0' ++ digits
    else
      let point := if digits.length = 1 then digits else digits.take 1 ++ '.' :: digits.drop 1
      point ++ 'e' :: (if lead < 0 then '-' else '+') :: (toString lead.natAbs).toList
  String.ofList (if x.negative then '-' :: body else body)

end Binary64

end FuzzLedger
