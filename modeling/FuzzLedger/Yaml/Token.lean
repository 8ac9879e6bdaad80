import FuzzLedger.Yaml.Property
import FuzzLedger.Yaml.Scalar

/-!
# Tokens of a YAML text

`Token.scan` cuts a YAML text into tokens.  Indentation becomes tokens too: a block collection
opens where a line is indented deeper than the collection around it and closes where a line is
indented less.  Whether a scalar is a key shows only at the colon after it, so the scanner
remembers where a key may have begun (`KeyMark`) and puts the key's token there when the colon
comes.

A byte order mark that starts a line is passed over; it takes up a column like any character.
-/

set_option autoImplicit false

namespace FuzzLedger.Yaml

/-- A piece of a YAML text. -/
inductive Token where
  | versionRule (major minor : Nat)
  | tagRule (handle start : String)
  | documentStart
  | documentEnd
  | blockSequenceStart
  | blockMappingStart
  | blockEnd
  | flowSequenceStart
  | flowSequenceEnd
  | flowMappingStart
  | flowMappingEnd
  | blockEntry
  | flowEntry
  | key
  | value
  | anchor (name : String)
  | reference (name : String)
  | tag (handle rest : String)
  | scalar (style : Style) (text : String)
  | streamEnd
  deriving DecidableEq, Repr

/-! ## The scanner -/

/-- A place where a key may have begun. -/
structure KeyMark where
  token : Nat
  required : Bool
  line : Nat
  column : Nat
  index : Nat

/-- The state of the scanner. -/
structure Scanner where
  cur : Cursor
  tokens : Array Token := #[]
  /-- The indentation of the innermost block collection. -/
  indent : Int := -1
  outer : List Int := []
  /-- Whether a key may begin here. -/
  keyAllowed : Bool := true
  /-- The mark of the current level. -/
  mark : Option KeyMark := none
  /-- The marks of the levels around the current flow collection. -/
  marks : List (Option KeyMark) := []

namespace Scanner

/-- Inside a flow collection. -/
def inFlow (s : Scanner) : Bool := !s.marks.isEmpty

def push (s : Scanner) (t : Token) : Scanner := { s with tokens := s.tokens.push t }

def skip (s : Scanner) (count : Nat) : Scanner := { s with cur := s.cur.skip count }

/-- Gives up the mark of the current level; a key that had to come has not come. -/
def dropMark (s : Scanner) : Scan Scanner :=
  if s.mark.any (·.required) then refuse else .ok { s with mark := none }

/-- Remembers that a key may begin here. -/
def setMark (s : Scanner) : Scan Scanner :=
  if s.keyAllowed then do
    let s ← s.dropMark
    let required := !s.inFlow && s.indent == s.cur.column
    return { s with
      mark := some ⟨s.tokens.size, required, s.cur.line, s.cur.column, s.cur.index⟩ }
  else .ok s

/-- A key stands on one line and is not longer than 1024 characters. -/
def dropStaleMarks (s : Scanner) : Scan Scanner :=
  let stale (m : KeyMark) : Bool := m.line < s.cur.line || m.index + 1024 < s.cur.index
  if (s.mark :: s.marks).any (fun m => m.any fun m => stale m && m.required) then refuse
  else
    .ok { s with
      mark := s.mark.filter (fun m => !stale m)
      marks := s.marks.map fun m => m.filter (fun m => !stale m) }

/-- Closes the block collections that are indented deeper than a column. -/
def closeDeeper (column : Int) : List Int → Scanner → Scanner
  | [], s => s
  | previous :: outer, s =>
    if column < s.indent then
      closeDeeper column outer { s.push .blockEnd with indent := previous, outer }
    else s

def unroll (s : Scanner) (column : Int) : Scanner :=
  if s.inFlow then s else closeDeeper column s.outer s

/-- Opens a block collection at a column, with its token at the given place. -/
def roll (s : Scanner) (column : Nat) (place : Nat) (t : Token) : Scanner :=
  if s.inFlow then s
  else if s.indent < column then
    { s with
      outer := s.indent :: s.outer
      indent := column
      tokens := s.tokens.insertIdxIfInBounds place t }
  else s

/-- Goes over white space and comments to the next token. -/
def toNextToken : Nat → Scanner → Scanner
  | 0, s => s
  | steps + 1, s =>
    match s.cur.rest with
    | [] => s
    | c :: _ =>
      if c == ' ' || (c == '\t' && (s.inFlow || !s.keyAllowed)) ||
          (c == '\ufeff' && s.cur.column == 0) then toNextToken steps (s.skip 1)
      else if c == '#' then toNextToken steps { s with cur := s.cur.skipToBreak }
      else
        match s.cur.readBreak with
        | some (_, next) =>
          toNextToken steps { s with cur := next, keyAllowed := s.keyAllowed || !s.inFlow }
        | none => s

/-- A document marker. -/
def marker (s : Scanner) (t : Token) : Scan Scanner := do
  let s ← (s.unroll (-1)).dropMark
  return { (s.skip 3).push t with keyAllowed := false }

def flowStart (s : Scanner) (t : Token) : Scan Scanner := do
  let s ← s.setMark
  return { (s.skip 1).push t with marks := s.mark :: s.marks, mark := none, keyAllowed := true }

def flowEnd (s : Scanner) (t : Token) : Scan Scanner := do
  let s ← s.dropMark
  let s := { (s.skip 1).push t with keyAllowed := false }
  match s.marks with
  | [] => return s
  | mark :: marks => return { s with mark, marks }

def flowEntry (s : Scanner) : Scan Scanner := do
  let s ← s.dropMark
  return { (s.skip 1).push .flowEntry with keyAllowed := true }

def blockEntry (s : Scanner) : Scan Scanner := do
  if !s.inFlow && !s.keyAllowed then refuse
  else
    let s ← (s.roll s.cur.column s.tokens.size .blockSequenceStart).dropMark
    return { (s.skip 1).push .blockEntry with keyAllowed := true }

def key (s : Scanner) : Scan Scanner := do
  if !s.inFlow && !s.keyAllowed then refuse
  else
    let s ← (s.roll s.cur.column s.tokens.size .blockMappingStart).dropMark
    return { (s.skip 1).push .key with keyAllowed := !s.inFlow }

def value (s : Scanner) : Scan Scanner :=
  match s.mark with
  | some m =>
    let s := { s with tokens := s.tokens.insertIdxIfInBounds m.token .key }
    let s := s.roll m.column m.token .blockMappingStart
    .ok { (s.skip 1).push .value with mark := none, keyAllowed := false }
  | none =>
    if !s.inFlow && !s.keyAllowed then refuse
    else
      let s := s.roll s.cur.column s.tokens.size .blockMappingStart
      .ok { (s.skip 1).push .value with keyAllowed := !s.inFlow }

/-- An anchor, or a reference to one. -/
def nameToken (make : String → Token) (s : Scanner) : Scan Scanner := do
  let s ← s.setMark
  let (cur, name) ← readAnchor (s.cur.skip 1)
  return { s.push (make name) with cur, keyAllowed := false }

def tagToken (steps : Nat) (s : Scanner) : Scan Scanner := do
  let s ← s.setMark
  let (cur, handle, rest) ← readTag s.inFlow steps s.cur
  return { s.push (.tag handle rest) with cur, keyAllowed := false }

/-- A directive. -/
def directive (steps : Nat) (s : Scanner) : Scan Scanner := do
  let s ← (s.unroll (-1)).dropMark
  let (cur, d) ← readDirective steps (s.cur.skip 1)
  let token : Token := match d with
    | .version major minor => .versionRule major minor
    | .tag handle start => .tagRule handle start
  return { s.push token with cur, keyAllowed := false }

def blockScalar (steps : Nat) (folded : Bool) (s : Scanner) : Scan Scanner := do
  let s ← s.dropMark
  let (cur, text) ← readBlock folded s.indent steps (s.cur.skip 1)
  return { s.push (.scalar (if folded then .folded else .literal) text) with
    cur, keyAllowed := true }

def quotedScalar (steps : Nat) (single : Bool) (s : Scanner) : Scan Scanner := do
  let s ← s.setMark
  let (cur, chars) ← readQuoted single steps (s.cur.skip 1) []
  return { s.push (.scalar .quoted (String.ofList chars.reverse)) with cur, keyAllowed := false }

def plainScalar (steps : Nat) (s : Scanner) : Scan Scanner := do
  let s ← s.setMark
  let (cur, chars, broken) ← readPlain s.inFlow (s.indent + 1) steps s.cur [] {}
  return { s.push (.scalar .plain (String.ofList chars.reverse)) with cur, keyAllowed := broken }

/-- The characters with which no plain scalar begins. -/
def isIndicator (c : Char) : Bool :=
  ['-', '?', ':', ',', '[', ']', '\x7b', '\x7d', '#', '&', '*', '!', '|', '>', '\'', '"', '%', '@',
    '\x60'].contains c

/-- Adds the next tokens; `steps` is more than the length of the text. -/
def next (steps : Nat) (s : Scanner) : Scan Scanner := do
  let s ← (toNextToken steps s).dropStaleMarks
  let s := s.unroll s.cur.column
  match s.cur.rest with
  | [] => do
    let s ← (s.unroll (-1)).dropMark
    return s.push .streamEnd
  | c :: rest =>
    if s.cur.column == 0 && c == '%' then s.directive steps
    else if s.cur.atMarker ['-', '-', '-'] then s.marker .documentStart
    else if s.cur.atMarker ['.', '.', '.'] then s.marker .documentEnd
    else if c == '[' then s.flowStart .flowSequenceStart
    else if c == '\x7b' then s.flowStart .flowMappingStart
    else if c == ']' then s.flowEnd .flowSequenceEnd
    else if c == '\x7d' then s.flowEnd .flowMappingEnd
    else if c == ',' then s.flowEntry
    else if c == '-' && endsWord rest then s.blockEntry
    else if c == '?' && (s.inFlow || endsWord rest) then s.key
    else if c == ':' && (s.inFlow || endsWord rest) then s.value
    else if c == '*' then s.nameToken .reference
    else if c == '&' then s.nameToken .anchor
    else if c == '!' then s.tagToken steps
    else if c == '|' && !s.inFlow then s.blockScalar steps false
    else if c == '>' && !s.inFlow then s.blockScalar steps true
    else if c == '\'' then s.quotedScalar steps true
    else if c == '"' then s.quotedScalar steps false
    else if !(isBlankOrBreak c || isIndicator c) || c == '-' ||
        (!s.inFlow && (c == '?' || c == ':')) then s.plainScalar steps
    else refuse

/-- Scans on until the end of the text. -/
def finish (length : Nat) : Nat → Scanner → Scan (Array Token)
  | 0, _ => refuse
  | steps + 1, s => do
    let s ← next length s
    if s.tokens.back? == some .streamEnd then return s.tokens else finish length steps s

end Scanner

/-- The tokens of a text. -/
def Token.scan (text : String) : Scan (List Token) := do
  let chars := text.toList
  if chars.all isAllowed then
    let length := chars.length + 2
    return (← Scanner.finish length length { cur := { rest := chars } }).toList
  else refuse

end FuzzLedger.Yaml
