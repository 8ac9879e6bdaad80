import FuzzLedger.Text.Quoted

/-!
# Writing JSON

A `Json.Value` is what the program writes: whole numbers, texts, and arrays and objects of them,
with the members of an object in the order given.  `Value.render` writes it without blanks;
`Value.sortKeys` puts the members of every object in alphabetical order first.

A string escapes the quote, the backslash and the characters below U+0020, those with a letter of
their own by that letter and the others by four hexadecimal digits; all else is written as it is.
-/

set_option autoImplicit false

namespace FuzzLedger.Json

/-- A JSON value with ordered members. -/
inductive Value where
  | null
  | bool (b : Bool)
  | int (n : Int)
  | text (s : String)
  | arr (items : List Value)
  | obj (members : List (String × Value))

/-! ## Strings -/

/-- Four hexadecimal digits of a number below `256`. -/
def unitDigits (n : Nat) : List Char :=
  ['0', '0', (n / 16).digitChar, (n % 16).digitChar]

/-- One character inside a written string. -/
def escapeChar (c : Char) : List Char :=
  if c = '"' then ['\\', '"']
  else if c = '\\' then ['\\', '\\']
  else if c = '\x08' then ['\\', 'b']
  else if c = '\x0c' then ['\\', 'f']
  else if c = '\n' then ['\\', 'n']
  else if c = '\r' then ['\\', 'r']
  else if c = '\t' then ['\\', 't']
  else if c.toNat < 0x20 then '\\' :: 'u' :: unitDigits c.toNat
  else [c]

/-- The characters between the quotes of a written string. -/
def escapeChars (s : List Char) : List Char := s.flatMap escapeChar

/-- A written string. -/
def stringChars (s : String) : List Char := '"' :: (escapeChars s.toList ++ ['"'])

/-- A written whole number. -/
def intChars (n : Int) : List Char :=
  if n < 0 then '-' :: Nat.toDigits 10 n.natAbs else Nat.toDigits 10 n.natAbs

/-! ## Values -/

namespace Value

mutual

/-- The characters of a written value. -/
def toChars : Value → List Char
  | .null => ['n', 'u', 'l', 'l']
  | .bool true => ['t', 'r', 'u', 'e']
  | .bool false => ['f', 'a', 'l', 's', 'e']
  | .int n => intChars n
  | .text s => stringChars s
  | .arr items => '[' :: itemsChars items
  | .obj members => '\x7b' :: membersChars members

/-- The elements of a written array and its closing bracket. -/
def itemsChars : List Value → List Char
  | [] => [']']
  | [v] => v.toChars ++ [']']
  | v :: w :: rest => v.toChars ++ ',' :: itemsChars (w :: rest)

/-- The members of a written object and its closing brace. -/
def membersChars : List (String × Value) → List Char
  | [] => ['\x7d']
  | [(k, v)] => stringChars k ++ ':' :: v.toChars ++ ['\x7d']
  | (k, v) :: w :: rest => stringChars k ++ ':' :: v.toChars ++ ',' :: membersChars (w :: rest)

end

/-- The text of a value, without blanks. -/
def render (v : Value) : String := String.ofList v.toChars

/-- Puts a member in its alphabetical place. -/
def insertKey (key : String) (value : Value) : List (String × Value) → List (String × Value)
  | [] => [(key, value)]
  | (k, v) :: rest =>
    if k < key then (k, v) :: insertKey key value rest else (key, value) :: (k, v) :: rest

mutual

/-- The value with the members of every object in alphabetical order. -/
def sortKeys : Value → Value
  | .null => .null
  | .bool b => .bool b
  | .int n => .int n
  | .text s => .text s
  | .arr items => .arr (sortItems items)
  | .obj members => .obj (sortMembers members)

/-- Sorts the members inside every element. -/
def sortItems : List Value → List Value
  | [] => []
  | v :: rest => v.sortKeys :: sortItems rest

/-- Sorts members, and those inside them. -/
def sortMembers : List (String × Value) → List (String × Value)
  | [] => []
  | (k, v) :: rest => insertKey k v.sortKeys (sortMembers rest)

end

end Value

end FuzzLedger.Json
