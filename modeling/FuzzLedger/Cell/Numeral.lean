import FuzzLedger.Decimal.Shortest

/-!
# Numbers as the tables read and write them

A value that is put into a column may change between number and text.  `Numeral.ofText?` takes a
text as a number if it is one as a whole, but for blanks around it; of a long row of digits only
the first eighteen or nineteen count.  `Double.text` writes a double with at most fifteen digits,
and always with a point.
-/

set_option autoImplicit false

namespace FuzzLedger

/-- A double that is a number or an infinity. -/
inductive Double where
  | finite (x : Binary64)
  | infinite (negative : Bool)
  deriving DecidableEq, Repr

namespace Double

/-- The double nearest to `± significand * 10 ^ exponent`. -/
def ofDecimal (negative : Bool) (significand : Nat) (exponent : Int) : Double :=
  match Binary64.round? (significand * Nat.pow 10 exponent.toNat)
    (Nat.pow 10 (-exponent).toNat) with
  | some x => .finite (x.withSign negative)
  | none => .infinite negative

/-- The whole number that a double is, if it is one that lies strictly between the ends of the
64-bit numbers. -/
def whole? : Double → Option Int
  | .infinite _ => none
  | .finite x =>
    let (num, den) := x.toRatio
    let n : Int := if x.negative then -(num / den : Nat) else (num / den : Nat)
    if num % den = 0 ∧ Int64.minValue.toInt < n ∧ n < Int64.maxValue.toInt then some n else none

/-- The first digits of a double, fifteen at most and the last one rounded up from the half on. -/
def leadingDigits (x : Binary64) : Binary64.Decimal :=
  let (num, den) := x.toRatio
  let power := Binary64.leadingPower num den - 14
  let (n, d) := Binary64.overTens num den power
  Binary64.shortest.strip 16 ⟨(2 * n + d) / (2 * d), power⟩

/-- The text of a double. -/
def text : Double → String
  | .infinite negative => if negative then "-Inf" else "Inf"
  | .finite x =>
    if x.isZero then "0.0"
    else
      let decimal := leadingDigits x
      let digits := (toString decimal.digits).toList
      let lead : Int := decimal.power + digits.length - 1
      let orZero (fraction : List Char) : List Char :=
        if fraction.isEmpty then ['0'] else fraction
      let body : List Char :=
        if 0 ≤ lead ∧ lead ≤ 14 then
          (digits ++ List.replicate decimal.power.toNat '0').take (lead.toNat + 1) ++
            '.' :: orZero (digits.drop (lead.toNat + 1))
        else if -4 ≤ lead ∧ lead < 0 then
          '0' :: '.' :: (List.replicate (lead.natAbs - 1) '0' ++ digits)
        else
          let power := (toString lead.natAbs).toList
          digits.take 1 ++ '.' :: (orZero (digits.drop 1) ++
            'e' :: (if lead < 0 then '-' else '+') ::
              (if power.length = 1 then '0' :: power else power))
      String.ofList (if x.negative then '-' :: body else body)

end Double

/-- A number in a text. -/
structure Numeral where
  negative : Bool
  /-- The digits before the point. -/
  whole : List Nat
  /-- The digits after the point. -/
  fraction : List Nat
  /-- The power of ten after the digits. -/
  power : Int
  /-- Whether it has neither a point nor a power of ten. -/
  plain : Bool
  deriving DecidableEq, Repr

namespace Numeral

def isBlank (c : Char) : Bool := c == ' ' || ('\t' ≤ c && c ≤ '\r')

/-- The digits at the beginning of a text, and what follows them. -/
def digits (text : List Char) : List Nat × List Char :=
  ((text.takeWhile Char.isDigit).map fun c => c.toNat - '0'.toNat, text.dropWhile Char.isDigit)

/-- A sign at the beginning of a text, and what follows it. -/
def sign : List Char → Bool × List Char
  | '-' :: rest => (true, rest)
  | '+' :: rest => (false, rest)
  | rest => (false, rest)

/-- The power of ten that a text begins with, if it does, and what follows it.  Powers beyond ten
thousand are not told apart. -/
def powerOfTen? : List Char → Option (Option Int × List Char)
  | [] => some (none, [])
  | c :: rest =>
    if c == 'e' || c == 'E' then
      let (negative, rest) := sign rest
      let (ds, rest) := digits rest
      let size : Nat := ds.foldl (fun n d => if n < 10000 then n * 10 + d else 10000) 0
      if ds.isEmpty then none else some (some (if negative then -(size : Int) else size), rest)
    else some (none, c :: rest)

/-- A text taken apart, if it is a number with nothing but blanks around it. -/
def ofText? (text : String) : Option Numeral := do
  let (negative, rest) := sign (text.toList.dropWhile isBlank)
  let (whole, rest) := digits rest
  let (point, fraction, rest) :=
    match rest with
    | '.' :: rest => let (fraction, rest) := digits rest; (true, fraction, rest)
    | rest => (false, [], rest)
  let (power, rest) ← powerOfTen? rest
  if rest.all isBlank && !(whole.isEmpty && fraction.isEmpty) then
    return { negative, whole, fraction, power := power.getD 0, plain := !point && power.isNone }
  else none

/-- From here on further digits only count by their place. -/
def enough : Nat := 922337203685477579

/-- The digits of a numeral as one number, and the power of ten that it is to be taken with. -/
def significand (n : Numeral) : Nat × Int :=
  let before := n.whole.foldl
    (fun (s, power) d => if s < enough then (s * 10 + d, power) else (s, power + 1)) (0, n.power)
  n.fraction.foldl
    (fun (s, power) d => if s < enough then (s * 10 + d, power - 1) else (s, power)) before

/-- The double that a numeral denotes. -/
def toDouble (n : Numeral) : Double :=
  let (significand, power) := n.significand
  .ofDecimal n.negative significand power

/-- The whole number that a numeral denotes, if it is plain and has 64 bits. -/
def plain? (n : Numeral) : Option Int :=
  let size : Nat := n.whole.foldl (fun s d => s * 10 + d) 0
  let value : Int := if n.negative then -(size : Int) else size
  if n.plain ∧ Int64.minValue.toInt ≤ value ∧ value ≤ Int64.maxValue.toInt then some value
  else none

end Numeral

end FuzzLedger
