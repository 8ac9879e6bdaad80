import FuzzLedger.Json.Lexeme

/-!
# JSON texts as trees, up to their first fault

`Document.ofText` turns any text into a tree.  Where the text stops being JSON, the tree holds the
reason at that place (`Tree.broken` and its companions), so reading a tree in the order of the
text meets the faults of the text and the faults of shape in the order in which they stand there.

`Tree.readStop` is the first fault of a tree whose values are all needed, nested at most a given
number of levels; `Tree.passStop` is the first fault of a tree that is only passed over, at any
depth.
-/

set_option autoImplicit false

namespace FuzzLedger.Json

mutual

/-- A value of a text. -/
inductive Tree where
  | null
  | bool (b : Bool)
  /-- A number; `none` if it is too large for a double. -/
  | number (n : Option Numeral)
  /-- A string; `none` if it has an unpaired surrogate. -/
  | text (s : Option String)
  | seq (items : Items)
  | map (members : Members)
  /-- The end of the text where a value should begin. -/
  | missing
  /-- A string that is not finished. -/
  | brokenText (b : Break)
  /-- Anything else that is no value. -/
  | broken (b : Break)

/-- What stands after an opening bracket or after an element. -/
inductive Items where
  | done
  | more (head : Tree) (tail : Items)
  /-- Neither a comma nor the closing bracket. -/
  | unclosed (stop : Stop)
  /-- A comma with no element after it. -/
  | dangling (stop : Stop)

/-- What stands after an opening brace or after a member. -/
inductive Members where
  | done
  | more (key : Option String) (value : Tree) (tail : Members)
  /-- Neither a comma, or at first a key, nor the closing brace. -/
  | unclosed (stop : Stop)
  /-- A comma with no key after it. -/
  | dangling (stop : Stop)
  /-- A key that is not finished. -/
  | brokenKey (b : Break)

end

/-- A text taken as one value and whatever follows it. -/
structure Document where
  root : Tree
  /-- Whether anything but blanks follows the value. -/
  trailing : Bool

/-! ## From texts to trees -/

/-- A tree and the rest of the text, which is missing once the text has stopped being JSON. -/
abbrev Rest (α : Type) := α × Option (List Char)

/-- A fault for whoever comes to it. -/
def Break.both (stop : Stop) : Break := ⟨stop, stop⟩

/-- A word such as `null`, of which the first letter has been read. -/
def wordTree (word : List Char) (value : Tree) (rest : List Char) : Rest Tree :=
  match readWord word rest with
  | .ok rest => (value, some rest)
  | .error stop => (.broken (.both stop), none)

mutual

/-- The value at the start of a text.  At most three steps go by before a character is used up. -/
def readTree : Nat → List Char → Rest Tree
  | 0, _ => (.missing, none)
  | steps + 1, text =>
    match skipBlank text with
    | [] => (.missing, none)
    | c :: rest =>
      if c = '"' then
        match stringBody steps {} rest with
        | .done s rest => (.text s, some rest)
        | .broken b => (.brokenText b, none)
      else if c = '[' then
        let (items, rest) := readItems steps true rest
        (.seq items, rest)
      else if c = '\x7b' then
        let (members, rest) := readMembers steps true rest
        (.map members, rest)
      else if c = '-' ∨ isDigit c then
        match readNumber (c :: rest) with
        | .done n rest => (.number n, some rest)
        | .broken b => (.broken b, none)
      else if c = 'n' then wordTree ['u', 'l', 'l'] .null rest
      else if c = 't' then wordTree ['r', 'u', 'e'] (.bool true) rest
      else if c = 'f' then wordTree ['a', 'l', 's', 'e'] (.bool false) rest
      else (.broken (.both .wrong), none)

/-- The elements of an array from a place where one may begin (`first`) or after an element. -/
def readItems : Nat → Bool → List Char → Rest Items
  | 0, _, _ => (.unclosed .early, none)
  | steps + 1, first, text =>
    match skipBlank text with
    | [] => (.unclosed .early, none)
    | c :: rest =>
      if c = ']' then (.done, some rest)
      else if first then readItem steps (c :: rest)
      else if c = ',' then
        match skipBlank rest with
        | [] => (.dangling .early, none)
        | d :: rest => if d = ']' then (.dangling .wrong, none) else readItem steps (d :: rest)
      else (.unclosed .wrong, none)

/-- An element and those after it. -/
def readItem : Nat → List Char → Rest Items
  | 0, _ => (.unclosed .early, none)
  | steps + 1, text =>
    match readTree steps text with
    | (head, some rest) =>
      let (tail, rest) := readItems steps false rest
      (.more head tail, rest)
    | (head, none) => (.more head (.unclosed .early), none)

/-- The members of an object from a place where one may begin (`first`) or after a member. -/
def readMembers : Nat → Bool → List Char → Rest Members
  | 0, _, _ => (.unclosed .early, none)
  | steps + 1, first, text =>
    match skipBlank text with
    | [] => (.unclosed .early, none)
    | c :: rest =>
      if c = '\x7d' then (.done, some rest)
      else if first then if c = '"' then readMember steps rest else (.unclosed .wrong, none)
      else if c = ',' then
        match skipBlank rest with
        | [] => (.dangling .early, none)
        | d :: rest => if d = '"' then readMember steps rest else (.dangling .wrong, none)
      else (.unclosed .wrong, none)

/-- A member, whose opening quote has been read, and those after it. -/
def readMember : Nat → List Char → Rest Members
  | 0, _ => (.unclosed .early, none)
  | steps + 1, text =>
    match stringBody steps {} text with
    | .broken b => (.brokenKey b, none)
    | .done key rest =>
      match skipBlank rest with
      | [] => (.more key (.broken (.both .early)) .done, none)
      | c :: rest =>
        if c = ':' then
          match readTree steps rest with
          | (value, some rest) =>
            let (tail, rest) := readMembers steps false rest
            (.more key value tail, rest)
          | (value, none) => (.more key value .done, none)
        else (.more key (.broken (.both .wrong)) .done, none)

end

/-- The value of a text, and whether something follows it. -/
def Document.ofChars (text : List Char) : Document :=
  match readTree (3 * text.length + 3) text with
  | (root, some rest) => ⟨root, !(skipBlank rest).isEmpty⟩
  | (root, none) => ⟨root, false⟩

/-- The value of a text, and whether something follows it. -/
def Document.ofText (text : String) : Document := .ofChars text.toList

/-! ## Faults of a tree -/

mutual

/-- The first fault of a value that is passed over. -/
def Tree.passStop : Tree → Option Stop
  | .seq items => items.passStop
  | .map members => members.passStop
  | .missing => some .early
  | .brokenText b => some b.pass
  | .broken b => some b.pass
  | .null | .bool _ | .number _ | .text _ => none

/-- The first fault of elements that are passed over. -/
def Items.passStop : Items → Option Stop
  | .done => none
  | .more head tail => head.passStop.or tail.passStop
  | .unclosed stop => some stop
  | .dangling stop => some stop

/-- The first fault of members that are passed over. -/
def Members.passStop : Members → Option Stop
  | .done => none
  | .more _ value tail => value.passStop.or tail.passStop
  | .unclosed stop => some stop
  | .dangling stop => some stop
  | .brokenKey b => some b.pass

end

mutual

/-- The first fault of a value that is needed and may open `room` more levels. -/
def Tree.readStop (room : Nat) : Tree → Option Stop
  | .null => none
  | .bool _ => none
  | .number n => if n.isSome then none else some .wrong
  | .text s => if s.isSome then none else some .wrong
  | .seq items => if room = 0 then some .wrong else items.readStop (room - 1)
  | .map members => if room = 0 then some .wrong else members.readStop (room - 1)
  | .missing => some .early
  | .brokenText b => some b.read
  | .broken b => some b.read

/-- The first fault of elements that are needed. -/
def Items.readStop (room : Nat) : Items → Option Stop
  | .done => none
  | .more head tail => (head.readStop room).or (tail.readStop room)
  | .unclosed stop => some stop
  | .dangling stop => some stop

/-- The first fault of members that are needed. -/
def Members.readStop (room : Nat) : Members → Option Stop
  | .done => none
  | .more key value tail =>
    if key.isSome then (value.readStop room).or (tail.readStop room) else some .wrong
  | .unclosed stop => some stop
  | .dangling stop => some stop
  | .brokenKey b => some b.read

end

/-- The number of levels that a text may nest where its values are needed. -/
def maxLevels : Nat := 127

end FuzzLedger.Json
