import FuzzLedger.Timestamp.Basic

/-!
# The text of a timestamp

`Timestamp.parse?` reads the internet date and time format: `YYYY-MM-DD`, one ASCII character of
any kind, `HH:MM:SS`, an optional fraction of which nine digits count, and `Z`, `z` or a signed
`HH:MM`.  A sixtieth second is read only where a leap second may stand, as the last nanosecond of
the second before it.

`Timestamp.render` writes the one normal form: separator `T`, no trailing zeros in the fraction
and no empty fraction, `Z` for a zero offset.  `Stamp.text` is the form in which the clock's
readings are stored, always with three places.
-/

set_option autoImplicit false

namespace FuzzLedger

/-! ## Digits -/

/-- The decimal digit of a number below ten. -/
def digitChar (n : Nat) : Char := Char.ofNat (48 + n % 10)

/-- The value of a decimal digit. -/
def digitValue? (c : Char) : Option Nat :=
  if '0' ≤ c ∧ c ≤ '9' then some (c.toNat - 48) else none

/-- The last `width` decimal digits of a number, with leading zeros. -/
def paddedDigits : Nat → Nat → List Char
  | 0, _ => []
  | width + 1, n => paddedDigits width (n / 10) ++ [digitChar n]

/-- Reads exactly `width` digits after those already read into `value`. -/
def readDigits : Nat → Nat → List Char → Option (Nat × List Char)
  | 0, value, rest => some (value, rest)
  | _ + 1, _, [] => none
  | width + 1, value, c :: rest =>
    match digitValue? c with
    | some d => readDigits width (10 * value + d) rest
    | none => none

/-- Reads one given character. -/
def readChar (c : Char) : List Char → Option (List Char)
  | d :: rest => if d = c then some rest else none
  | [] => none

/-- Reads one ASCII character of any kind. -/
def readSeparator : List Char → Option (List Char)
  | c :: rest => if c.toNat < 128 then some rest else none
  | [] => none

/-- Splits a text after its leading digits. -/
def spanDigits (text : List Char) : List Char × List Char :=
  text.span (fun c => (digitValue? c).isSome)

/-- The nanoseconds of a fraction: its first nine digits, filled up with zeros. -/
def fractionValue (digits : List Char) : Nat :=
  ((digits ++ List.replicate 9 '0').take 9).foldl (fun n c => 10 * n + (digitValue? c).getD 0) 0

/-- Reads an optional fraction of a second. -/
def readFraction : List Char → Option (Nat × List Char)
  | '.' :: rest =>
    match spanDigits rest with
    | ([], _) => none
    | (digits, rest) => some (fractionValue digits, rest)
  | text => some (0, text)

/-- Reads the offset from UTC, in minutes, at the end of a text. -/
def readOffset : List Char → Option Int
  | ['Z'] => some 0
  | ['z'] => some 0
  | sign :: rest =>
    if sign = '+' ∨ sign = '-' then do
      let (hours, rest) ← readDigits 2 0 rest
      let rest ← readChar ':' rest
      let (minutes, rest) ← readDigits 2 0 rest
      if hours ≤ 23 ∧ minutes ≤ 59 ∧ rest = [] then
        let offset : Int := hours * 60 + minutes
        some (if sign = '-' then -offset else offset)
      else none
    else none
  | [] => none

/-! ## Reading -/

/-- The numbers of a time as they stand in its text; the offset is in minutes. -/
structure TimeFields where
  year : Nat
  month : Nat
  day : Nat
  hour : Nat
  minute : Nat
  second : Nat
  nanosecond : Nat
  offset : Int

/-- Reads the numbers of a time.  Whether there is such a time is not looked at. -/
def readFields (text : List Char) : Option TimeFields := do
  let (year, text) ← readDigits 4 0 text
  let text ← readChar '-' text
  let (month, text) ← readDigits 2 0 text
  let text ← readChar '-' text
  let (day, text) ← readDigits 2 0 text
  let text ← readSeparator text
  let (hour, text) ← readDigits 2 0 text
  let text ← readChar ':' text
  let (minute, text) ← readDigits 2 0 text
  let text ← readChar ':' text
  let (second, text) ← readDigits 2 0 text
  let (nanosecond, text) ← readFraction text
  let offset ← readOffset text
  return ⟨year, month, day, hour, minute, second, nanosecond, offset⟩

namespace Timestamp

/-- The timestamp that fields denote.  A sixtieth second is the last nanosecond before it. -/
def ofTimeFields? (f : TimeFields) : Option Timestamp :=
  if f.second = 60 then do
    let stand ← ofFields? f.year f.month f.day f.hour f.minute 59 999999999 f.offset
    if stand.endsMonth then some stand else none
  else ofFields? f.year f.month f.day f.hour f.minute f.second f.nanosecond f.offset

/-- Reads a timestamp from the characters of a text. -/
def ofChars? (text : List Char) : Option Timestamp := do ofTimeFields? (← readFields text)

/-- Reads a timestamp. -/
def parse? (text : String) : Option Timestamp := ofChars? text.toList

/-! ## Writing -/

/-- The date and the time of day down to the second. -/
def civilChars (t : Timestamp) : List Char :=
  paddedDigits 4 t.year ++ '-' :: paddedDigits 2 t.month ++ '-' :: paddedDigits 2 t.day ++
    'T' :: paddedDigits 2 t.hour ++ ':' :: paddedDigits 2 t.minute ++ ':' :: paddedDigits 2 t.second

/-- The fraction of a second without trailing zeros, and nothing for a whole second. -/
def fractionChars (nanosecond : Nat) : List Char :=
  if nanosecond = 0 then []
  else '.' :: ((paddedDigits 9 nanosecond).reverse.dropWhile (· = '0')).reverse

/-- The offset from UTC, in minutes. -/
def offsetChars (offset : Int) : List Char :=
  if offset = 0 then ['Z']
  else (if offset < 0 then '-' else '+') ::
    paddedDigits 2 (offset.natAbs / 60) ++ ':' :: paddedDigits 2 (offset.natAbs % 60)

/-- The characters of the normal form. -/
def toChars (t : Timestamp) : List Char :=
  t.civilChars ++ fractionChars t.nanosecond ++ offsetChars t.offset

/-- The normal form of a timestamp. -/
def render (t : Timestamp) : String := String.ofList t.toChars

end Timestamp

/-- The stored form of a clock reading: `YYYY-MM-DDTHH:MM:SS.mmmZ`. -/
def Stamp.text (s : Stamp) : String :=
  String.ofList (s.time.civilChars ++ '.' :: paddedDigits 3 (s.time.nanosecond / 1000000) ++ ['Z'])

end FuzzLedger
