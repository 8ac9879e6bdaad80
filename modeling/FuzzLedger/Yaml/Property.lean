import FuzzLedger.Yaml.Cursor

/-!
# Anchors, tags and directives of a YAML text

Before a node may stand an anchor, by which the node can be referred to again, and a tag, which says
what kind of value the node is.  A tag is a handle and a rest: the handle stands for the start of
the full tag, and directives before the document may say for which.
-/

set_option autoImplicit false

namespace FuzzLedger.Yaml

/-! ## Names -/

/-- The characters of which the names of anchors, handles and directives consist. -/
def isNameChar (c : Char) : Bool := c.isAlphanum || c == '_' || c == '-'

/-- The name at a place, which may be empty. -/
def readName (cur : Cursor) : Cursor × List Char :=
  let name := cur.rest.takeWhile isNameChar
  (cur.skip name.length, name)

/-- Whether the name of an anchor may end before the rest of the text. -/
def endsAnchor : List Char → Bool
  | [] => true
  | c :: _ => isBlankOrBreak c || ['?', ':', ',', ']', '\x7d', '%', '@', '\x60'].contains c

/-- The name of an anchor after its sign. -/
def readAnchor (cur : Cursor) : Scan (Cursor × String) :=
  let (cur, name) := readName cur
  if name.isEmpty || !endsAnchor cur.rest then refuse else .ok (cur, String.ofList name)

/-! ## Tags -/

/-- The characters that may stand in a tag; between angle brackets (`bracketed`) a few more. -/
def isTagChar (bracketed : Bool) (c : Char) : Bool :=
  isNameChar c ||
    [';', '/', '?', ':', '@', '&', '=', '+', '$', '.', '!', '~', '*', '\'', '(', ')'].contains c ||
    (bracketed && [',', '[', ']'].contains c)

/-- An octet written as a percent sign and two digits. -/
def octet? : List Char → Option Nat
  | '%' :: high :: low :: _ => do return 16 * (← Text.hexValue? high) + (← Text.hexValue? low)
  | _ => none

/-- The octets after the first of a character; each gives six bits. -/
def readTrailing : Nat → List Char → Nat → Scan Nat
  | 0, _, n => .ok n
  | count + 1, text, n =>
    match octet? text with
    | some octet =>
      if octet / 64 = 2 then readTrailing count (text.drop 3) (64 * n + octet % 64) else refuse
    | none => refuse

/-- A character written as octets, of which the first says how many there are; and their number.
Octets that make no character give a replacement for one. -/
def readOctets (text : List Char) : Scan (Char × Nat) :=
  match octet? text with
  | none => refuse
  | some first => do
    let (count, bits) ←
      if first < 0x80 then pure (1, first)
      else if first / 32 = 6 then pure (2, first % 32)
      else if first / 16 = 14 then pure (3, first % 16)
      else if first / 8 = 30 then pure (4, first % 8)
      else refuse
    let n ← readTrailing (count - 1) (text.drop 3) bits
    let c := Char.ofNat n
    return (if c.toNat = n ∧ c.utf8Size = count then c else '\ufffd', count)

/-- The characters of a tag, in reverse before those read already. -/
def readTagText (bracketed : Bool) : Nat → Cursor → List Char → Scan (Cursor × List Char)
  | 0, _, _ => refuse
  | steps + 1, cur, chars =>
    match cur.rest with
    | [] => .ok (cur, chars)
    | c :: _ =>
      if c == '%' then do
        let (x, count) ← readOctets cur.rest
        readTagText bracketed steps (cur.skip (3 * count)) (x :: chars)
      else if isTagChar bracketed c then readTagText bracketed steps (cur.skip 1) (c :: chars)
      else .ok (cur, chars)

/-- The part of a tag after its handle, which may not be empty. -/
def readTagRest (bracketed : Bool) (steps : Nat) (cur : Cursor) : Scan (Cursor × String) := do
  let (cur, chars) ← readTagText bracketed steps cur []
  if chars.isEmpty then refuse else return (cur, String.ofList chars.reverse)

/-- An exclamation mark, a name, and a second mark if there is one. -/
def readHandle (cur : Cursor) : Scan (Cursor × List Char) :=
  if cur.rest.head? == some '!' then
    let (cur, name) := readName (cur.skip 1)
    if cur.rest.head? == some '!' then .ok (cur.skip 1, '!' :: name ++ ['!'])
    else .ok (cur, '!' :: name)
  else refuse

/-- Whether it is a handle: between two marks there may be a name. -/
def isHandle (chars : List Char) : Bool := 1 < chars.length && chars.getLast? == some '!'

/-- A tag without angle brackets.  What is no handle belongs to the rest, and then the handle is one
mark; a mark alone is a tag without a handle. -/
def readShortTag (steps : Nat) (cur : Cursor) : Scan (Cursor × String × String) := do
  let (cur, handle) ← readHandle cur
  if isHandle handle then
    let (cur, rest) ← readTagRest false steps cur
    return (cur, String.ofList handle, rest)
  else
    let (cur, chars) ← readTagText false steps cur []
    let rest := handle.drop 1 ++ chars.reverse
    return if rest.isEmpty then (cur, "", "!") else (cur, "!", String.ofList rest)

/-- A tag between angle brackets, which is written in full. -/
def readFullTag (steps : Nat) (cur : Cursor) : Scan (Cursor × String × String) := do
  let (cur, rest) ← readTagRest true steps (cur.skip 2)
  if cur.rest.head? == some '>' then return (cur.skip 1, "", rest) else refuse

/-- A tag: its handle, which may be empty, and the rest of it. -/
def readTag (flow : Bool) (steps : Nat) (cur : Cursor) : Scan (Cursor × String × String) := do
  let (cur, tag) ←
    if (cur.rest.drop 1).head? == some '<' then readFullTag steps cur else readShortTag steps cur
  if endsWord cur.rest || (flow && cur.rest.head? == some ',') then return (cur, tag) else refuse

/-! ## Directives -/

/-- What is said before a document: the version of its format, or for what a handle stands. -/
inductive Directive where
  | version (major minor : Nat)
  | tag (handle start : String)
  deriving DecidableEq, Repr

/-- A number of one to nine digits. -/
def readVersionNumber (cur : Cursor) : Scan (Cursor × Nat) :=
  let digits := cur.rest.takeWhile Char.isDigit
  if digits.isEmpty || 9 < digits.length then refuse
  else .ok (cur.skip digits.length, digits.foldl (fun n c => 10 * n + (c.toNat - 48)) 0)

def readVersion (cur : Cursor) : Scan (Cursor × Directive) := do
  let (cur, major) ← readVersionNumber cur.skipBlanks
  if cur.rest.head? == some '.' then
    let (cur, minor) ← readVersionNumber (cur.skip 1)
    return (cur, .version major minor)
  else refuse

def readTagRule (steps : Nat) (cur : Cursor) : Scan (Cursor × Directive) := do
  let (cur, handle) ← readHandle cur.skipBlanks
  if (handle == ['!'] || isHandle handle) && (cur.rest.head?.map isBlank).getD false then
    let (cur, start) ← readTagRest true steps cur.skipBlanks
    if endsWord cur.rest then return (cur, .tag (String.ofList handle) start) else refuse
  else refuse

/-- A directive after its sign, to the end of its line. -/
def readDirective (steps : Nat) (cur : Cursor) : Scan (Cursor × Directive) := do
  let (cur, name) := readName cur
  if !endsWord cur.rest then refuse
  else
    let (cur, d) ←
      if name == ['Y', 'A', 'M', 'L'] then readVersion cur
      else if name == ['T', 'A', 'G'] then readTagRule steps cur
      else refuse
    let cur := cur.skipBlanks
    let cur := if cur.rest.head? == some '#' then cur.skipToBreak else cur
    match cur.rest with
    | [] => return (cur, d)
    | _ =>
      match cur.readBreak with
      | some (_, next) => return (next, d)
      | none => refuse

end FuzzLedger.Yaml
