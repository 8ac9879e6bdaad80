/-!
# Double-precision numbers in exact arithmetic

A finite double is a sign, a mantissa below `2 ^ 53` and a power of two.  Products, quotients and
whole numbers are computed exactly on natural numbers and then rounded to the nearest double,
a tie going to the even mantissa (`Binary64.round?`).

`Binary64.ofDecimal?` reads `significand * 10 ^ exponent` in two such steps, first the significand
and then the power of ten, so its last digit is that of two roundings.
-/

set_option autoImplicit false

namespace FuzzLedger

/-- The finite double `± mantissa * 2 ^ exponent`. -/
structure Binary64 where
  negative : Bool
  mantissa : Nat
  exponent : Int
  deriving DecidableEq, Repr

namespace Binary64

/-- The smallest power of two that occurs. -/
def minExponent : Int := -1074

/-- The largest power of two that occurs. -/
def maxExponent : Int := 971

/-- Positive zero. -/
def zero : Binary64 := ⟨false, 0, minExponent⟩

def isZero (x : Binary64) : Bool := x.mantissa == 0

/-- The same magnitude with the given sign. -/
def withSign (negative : Bool) (x : Binary64) : Binary64 := { x with negative := negative }

/-- The quotient of two numbers, rounded to the nearest whole number, a tie to the even one. -/
def divToEven (num den : Nat) : Nat :=
  let quotient := num / den
  let rest := num % den
  if den < 2 * rest ∨ (2 * rest = den ∧ quotient % 2 = 1) then quotient + 1 else quotient

/-- `num / den` in units of `2 ^ exponent`, rounded. -/
def mantissaAt (num den : Nat) (exponent : Int) : Nat :=
  if exponent < 0 then divToEven (num * Nat.pow 2 exponent.natAbs) den
  else divToEven num (den * Nat.pow 2 exponent.natAbs)

/-- The power of two at which `num / den` has a mantissa of 53 bits, or the smallest power. -/
def exponentFor (num den : Nat) : Int :=
  let guess : Int := (Nat.log2 num : Int) - (Nat.log2 den : Int) - 52
  -- The guess is right or one too large.
  let exact := if mantissaBelow guess then guess - 1 else guess
  max exact minExponent
where
  /-- Whether the quotient is below `2 ^ 52` units of `2 ^ guess`. -/
  mantissaBelow (guess : Int) : Bool :=
    if guess < 0 then num * Nat.pow 2 guess.natAbs < Nat.pow 2 52 * den
    else num < Nat.pow 2 52 * (den * Nat.pow 2 guess.natAbs)

/-- The double nearest to `num / den`, unless that is too large. -/
def round? (num den : Nat) : Option Binary64 :=
  if num = 0 then some zero
  else
    let exponent := exponentFor num den
    let mantissa := mantissaAt num den exponent
    let rounded : Binary64 :=
      if mantissa = Nat.pow 2 53 then ⟨false, Nat.pow 2 52, exponent + 1⟩
      else ⟨false, mantissa, exponent⟩
    if maxExponent < rounded.exponent then none else some rounded

/-- The magnitude of a double as a quotient of whole numbers. -/
def toRatio (x : Binary64) : Nat × Nat :=
  if x.exponent < 0 then (x.mantissa, Nat.pow 2 x.exponent.natAbs)
  else (x.mantissa * Nat.pow 2 x.exponent.natAbs, 1)

/-- The product of two magnitudes. -/
def mul? (x y : Binary64) : Option Binary64 :=
  round? (x.toRatio.1 * y.toRatio.1) (x.toRatio.2 * y.toRatio.2)

/-- The quotient of two magnitudes. -/
def div? (x y : Binary64) : Option Binary64 :=
  round? (x.toRatio.1 * y.toRatio.2) (x.toRatio.2 * y.toRatio.1)

/-- The largest power of ten that is a double. -/
def maxTens : Nat := 308

/-- Multiplies by a power of ten, in steps of at most `10 ^ 308`. -/
def scale? : Nat → Binary64 → Int → Option Binary64
  | 0, x, _ => some x
  | steps + 1, x, exponent =>
    if exponent.natAbs ≤ maxTens then do
      let power ← round? (Nat.pow 10 exponent.natAbs) 1
      if exponent < 0 then x.div? power else x.mul? power
    else if x.isZero then some x
    else if 0 < exponent then none
    else do
      let power ← round? (Nat.pow 10 maxTens) 1
      scale? steps (← x.div? power) (exponent + maxTens)

/-- The double read from a significand and a power of ten, unless it is too large. -/
def ofDecimal? (negative : Bool) (significand : Nat) (exponent : Int) : Option Binary64 := do
  -- Four steps suffice: the third division by `10 ^ 308` leaves zero.
  let magnitude ← scale? 4 (← round? significand 1) exponent
  return magnitude.withSign negative

end Binary64

end FuzzLedger
