import FuzzLedger.Json.Fault
import FuzzLedger.Text.Hex

/-!
# Strings and numbers of a JSON text

The readers here take the characters of a text and give the lexeme at its start together with the
rest of the text.  A text can be read for its values or only passed over, and the two differ:
an unpaired surrogate escape and a number beyond the doubles spoil a value that is needed, but not
one that is passed over.  `Lexed.done none rest` is such a lexeme.  A lexeme that is not finished
carries the reason for both ways of going over it (`Break`).
-/

set_option autoImplicit false

namespace FuzzLedger.Json

/-- A place where the text stops being JSON, for a reader who needs the value there and for one
who passes over it. -/
structure Break where
  read : Stop
  pass : Stop
  deriving DecidableEq, Repr

/-- The lexeme at the start of a text. -/
inductive Lexed (α : Type) where
  /-- A finished lexeme, with its value if it has one, and the rest of the text. -/
  | done (value : Option α) (rest : List Char)
  | broken (b : Break)
  deriving DecidableEq, Repr

/-- Space, tab, line feed and carriage return. -/
def isBlank (c : Char) : Bool := c == ' ' || c == '\t' || c == '\n' || c == '\r'

/-- The text from its first character that is not blank. -/
def skipBlank (text : List Char) : List Char := text.dropWhile isBlank

/-! ## Strings -/

/-- The code unit at the start of a text, four hexadecimal digits.  A text of fewer than four
bytes is too short whatever stands in it. -/
def codeUnit : List Char → Except Stop (Nat × List Char)
  | a :: b :: c :: d :: rest =>
    match Text.hexValue? a, Text.hexValue? b, Text.hexValue? c, Text.hexValue? d with
    | some a, some b, some c, some d => .ok (((a * 16 + b) * 16 + c) * 16 + d, rest)
    | _, _, _, _ => .error .wrong
  | short => .error (if (String.ofList short).utf8ByteSize < 4 then .early else .wrong)

/-- The character that a one-letter escape stands for. -/
def escapeValue? (c : Char) : Option Char :=
  if c = '"' then some '"'
  else if c = '\\' then some '\\'
  else if c = '/' then some '/'
  else if c = 'b' then some '\x08'
  else if c = 'f' then some '\x0c'
  else if c = 'n' then some '\n'
  else if c = 'r' then some '\r'
  else if c = 't' then some '\t'
  else none

def isHighSurrogate (n : Nat) : Bool := 0xD800 ≤ n && n ≤ 0xDBFF
def isLowSurrogate (n : Nat) : Bool := 0xDC00 ≤ n && n ≤ 0xDFFF

/-- What has been read of a string: its characters in reverse, a high surrogate still without its
partner, and whether some surrogate stayed alone. -/
structure Partial where
  chars : List Char := []
  high : Option Nat := none
  unpaired : Bool := false

namespace Partial

/-- Whether a surrogate stays alone if no escape follows. -/
def spoilt (p : Partial) : Bool := p.unpaired || p.high.isSome

/-- Adds a character. -/
def push (p : Partial) (c : Char) : Partial := ⟨c :: p.chars, none, p.spoilt⟩

/-- Adds a code unit written as an escape. -/
def pushUnit (p : Partial) (n : Nat) : Partial :=
  match p.high with
  | some high =>
    if isLowSurrogate n then
      ⟨Char.ofNat ((high - 0xD800) * 0x400 + (n - 0xDC00) + 0x10000) :: p.chars, none, p.unpaired⟩
    else if isHighSurrogate n then ⟨p.chars, some n, true⟩
    else ⟨Char.ofNat n :: p.chars, none, true⟩
  | none =>
    if isHighSurrogate n then ⟨p.chars, some n, p.unpaired⟩
    else if isLowSurrogate n then ⟨p.chars, none, true⟩
    else ⟨Char.ofNat n :: p.chars, none, p.unpaired⟩

/-- The string, unless a surrogate stayed alone. -/
def finish (p : Partial) : Option String :=
  if p.spoilt then none else some (String.ofList p.chars.reverse)

end Partial

/-- The string whose opening quote has been read.  Each step uses up at least one character of the
text, so any number of steps above its length will do. -/
def stringBody : Nat → Partial → List Char → Lexed String
  | 0, _, _ => .broken ⟨.early, .early⟩
  | _ + 1, p, [] => .broken ⟨if p.unpaired then .wrong else .early, .early⟩
  | steps + 1, p, c :: rest =>
    if c = '"' then .done p.finish rest
    else if c = '\\' then
      match rest with
      | [] => .broken ⟨if p.unpaired then .wrong else .early, .early⟩
      | e :: rest =>
        match escapeValue? e with
        | some x => stringBody steps (p.push x) rest
        | none =>
          if e = 'u' then
            match codeUnit rest with
            | .ok (n, rest) => stringBody steps (p.pushUnit n) rest
            | .error stop => .broken ⟨if p.unpaired then .wrong else stop, stop⟩
          else .broken ⟨.wrong, .wrong⟩
    else if c.toNat < 0x20 then .broken ⟨.wrong, .wrong⟩
    else stringBody steps (p.push c) rest

/-! ## Numbers -/

/-- A number: whole and in the range of 64-bit integers, signed or unsigned, or a double. -/
inductive Numeral where
  | int (n : Int)
  | float (x : Binary64)
  deriving DecidableEq, Repr

def isDigit (c : Char) : Bool := '0' ≤ c && c ≤ '9'

def digitNat (c : Char) : Nat := c.toNat - 48

/-- The largest significand that is kept. -/
def maxSignificand : Nat := UInt64.size - 1

/-- A significand and a power of ten, with the digits of the whole part read so far. -/
structure Mantissa where
  significand : Nat := 0
  exponent : Int := 0
  /-- Whether digits were dropped. -/
  full : Bool := false

/-- Adds a digit before the point.  A digit that would overflow the significand, and all after it,
only count as places. -/
def Mantissa.pushWhole (m : Mantissa) (c : Char) : Mantissa :=
  let next := m.significand * 10 + digitNat c
  if m.full ∨ maxSignificand < next then { m with exponent := m.exponent + 1, full := true }
  else { m with significand := next }

/-- Adds the digits after the point, up to the first that would overflow the significand. -/
def Mantissa.pushFraction : Mantissa → List Char → Mantissa
  | m, [] => m
  | m, c :: rest =>
    let next := m.significand * 10 + digitNat c
    if maxSignificand < next then m
    else pushFraction { m with significand := next, exponent := m.exponent - 1 } rest

/-- The number written without fraction and exponent. -/
def wholeNumeral (negative : Bool) (m : Mantissa) : Option Numeral :=
  if m.full then (Binary64.ofDecimal? negative m.significand m.exponent).map .float
  else if !negative then some (.int m.significand)
  else if m.significand = 0 ∨ Int64.minValue.toInt.natAbs < m.significand then
    (Binary64.ofDecimal? true m.significand 0).map .float
  else some (.int (-m.significand))

/-- A number that lacks a digit: at the end of the text it is unfinished to one who needs it and
wrong to one who passes over it. -/
def lackingDigit (rest : List Char) : Break :=
  ⟨if rest.isEmpty then .early else .wrong, .wrong⟩

/-- The exponent of a number, after its letter, and the number. -/
def readExponent (negative : Bool) (m : Mantissa) (text : List Char) : Lexed Numeral :=
  let (down, text) : Bool × List Char :=
    match text with
    | '+' :: rest => (false, rest)
    | '-' :: rest => (true, rest)
    | rest => (false, rest)
  let (digits, rest) := text.span isDigit
  if digits.isEmpty then .broken (lackingDigit rest)
  else
    let size : Int := digits.foldl (fun n c => 10 * n + digitNat c) 0
    let exponent := if down then m.exponent - size else m.exponent + size
    .done ((Binary64.ofDecimal? negative m.significand exponent).map .float) rest

/-- What follows the whole part of a number, and the number. -/
def readAfterWhole (negative : Bool) (m : Mantissa) : List Char → Lexed Numeral
  | '.' :: rest =>
    let (digits, rest) := rest.span isDigit
    if digits.isEmpty then .broken (lackingDigit rest)
    else
      let m := m.pushFraction digits
      match rest with
      | 'e' :: rest => readExponent negative m rest
      | 'E' :: rest => readExponent negative m rest
      | rest => .done ((Binary64.ofDecimal? negative m.significand m.exponent).map .float) rest
  | 'e' :: rest => readExponent negative m rest
  | 'E' :: rest => readExponent negative m rest
  | rest => .done (wholeNumeral negative m) rest

/-- The number at the start of a text, after its sign. -/
def readMagnitude (negative : Bool) (text : List Char) : Lexed Numeral :=
  let (digits, rest) := text.span isDigit
  match digits with
  | [] => .broken (lackingDigit rest)
  | '0' :: _ :: _ => .broken ⟨.wrong, .wrong⟩
  | digits => readAfterWhole negative (digits.foldl Mantissa.pushWhole {}) rest

/-- The number at the start of a text. -/
def readNumber : List Char → Lexed Numeral
  | '-' :: rest => readMagnitude true rest
  | text => readMagnitude false text

/-- The rest of a text after a fixed word. -/
def readWord : List Char → List Char → Except Stop (List Char)
  | [], rest => .ok rest
  | _ :: _, [] => .error .early
  | w :: word, c :: rest => if c = w then readWord word rest else .error .wrong

end FuzzLedger.Json
