import FuzzLedger.Text.Hex

/-!
# Places in a YAML text

What the scanner of YAML texts is built from: the classes of characters, and a `Cursor`, which is
the rest of the text together with the line and the column where it begins.
-/

set_option autoImplicit false

namespace FuzzLedger.Yaml

/-- The text is not YAML, or not of the shape that is asked for. -/
inductive Refusal where
  | refused
  deriving DecidableEq, Repr

abbrev Scan (α : Type) := Except Refusal α

def refuse {α : Type} : Scan α := .error .refused

/-! ## Characters -/

def isBreak (c : Char) : Bool :=
  c == '\n' || c == '\r' || c == '\u0085' || c == '\u2028' || c == '\u2029'

def isBlank (c : Char) : Bool := c == ' ' || c == '\t'

def isBlankOrBreak (c : Char) : Bool := isBlank c || isBreak c

/-- Whether a text is at its end or goes on with a blank or a line break. -/
def endsWord : List Char → Bool
  | [] => true
  | c :: _ => isBlankOrBreak c

/-- The characters that may stand in a YAML text. -/
def isAllowed (c : Char) : Bool :=
  c == '\t' || c == '\n' || c == '\r' || c == '\u0085' ||
    (' ' ≤ c && c ≤ '~') || ('\u00a0' ≤ c && c ≤ '\ufffd') || 0x10000 ≤ c.toNat

/-! ## Places in the text -/

/-- The rest of the text and where it begins. -/
structure Cursor where
  rest : List Char
  line : Nat := 0
  column : Nat := 0
  index : Nat := 0

namespace Cursor

/-- Goes over characters that break no line. -/
def skip (cur : Cursor) (count : Nat) : Cursor :=
  { cur with rest := cur.rest.drop count, column := cur.column + count, index := cur.index + count }

/-- Goes over a line break, if there is one; gives the character it stands for. -/
def readBreak (cur : Cursor) : Option (Char × Cursor) :=
  let past (count : Nat) : Cursor :=
    { rest := cur.rest.drop count, line := cur.line + 1, column := 0, index := cur.index + count }
  match cur.rest with
  | '\r' :: '\n' :: _ => some ('\n', past 2)
  | c :: _ =>
    if c == '\u2028' || c == '\u2029' then some (c, past 1)
    else if isBreak c then some ('\n', past 1)
    else none
  | [] => none

/-- Goes to the end of the line. -/
def skipToBreak (cur : Cursor) : Cursor :=
  cur.skip (cur.rest.takeWhile fun c => !isBreak c).length

/-- Goes over blanks. -/
def skipBlanks (cur : Cursor) : Cursor := cur.skip (cur.rest.takeWhile isBlank).length

/-- Whether a marker of three characters stands at the start of a line. -/
def atMarker (cur : Cursor) (marker : List Char) : Bool :=
  cur.column == 0 && cur.rest.take 3 == marker && endsWord (cur.rest.drop 3)

/-- Whether a document begins or ends here. -/
def atDocumentMarker (cur : Cursor) : Bool :=
  cur.atMarker ['-', '-', '-'] || cur.atMarker ['.', '.', '.']

end Cursor

end FuzzLedger.Yaml
