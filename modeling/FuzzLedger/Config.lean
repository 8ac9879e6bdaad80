import FuzzLedger.Yaml.Node

/-!
# The configuration file

A configuration names the database and the output format; everything in it may be left out, and
unknown keys are passed over.  A text may be any scalar.  The busy timeout is a plain whole number
of 64 bits, decimal or with the base `0x`, `0o` or `0b`.  A value may be referred to by a name that
it was given before.
-/

set_option autoImplicit false

namespace FuzzLedger

/-- The part of a configuration about the database. -/
structure DatabaseConfig where
  path : Option String := none
  busyTimeoutMs : Option Nat := none
  deriving DecidableEq, Repr

/-- A configuration. -/
structure Config where
  database : Option DatabaseConfig := none
  format : Option String := none
  deriving DecidableEq, Repr

namespace Config

open Yaml

/-! ## Scalars -/

/-- The tag of a node that says that there is no value. -/
def nullTag : String := "tag:yaml.org,2002:null"

/-- The tag of a whole number. -/
def intTag : String := "tag:yaml.org,2002:int"

/-- The words that say that there is no value. -/
def isNullWord (text : String) : Bool := ["null", "Null", "NULL", "~"].contains text

/-- A value that may be absent.  Only a plain scalar says that it is: one without a tag by being
empty or by a word, one with the tag of nothing by a word. -/
def optional {α : Type} (d : Document) (read : Node → Scan α) (node : Node) : Scan (Option α) :=
  match d.follow node with
  | .scalar none .plain text =>
    if text.isEmpty || isNullWord text then .ok none
    else do return some (← read (.scalar none .plain text))
  | .scalar (some tag) .plain text =>
    if tag = nullTag then if isNullWord text then .ok none else refuse
    else do return some (← read (.scalar (some tag) .plain text))
  | node => do return some (← read node)

/-- Any scalar as a text. -/
def readText : Node → Scan String
  | .scalar _ _ text => .ok text
  | _ => refuse

/-- The value of a digit in bases up to sixteen. -/
def digitIn (base : Nat) (c : Char) : Option Nat := (Text.hexValue? c).filter (· < base)

/-- A number of 64 bits written in a base, with at least one digit. -/
def readBase (base : Nat) (digits : List Char) : Option Nat := do
  let values ← digits.mapM (digitIn base)
  if values.isEmpty then none
  else
    let n := values.foldl (fun n d => n * base + d) 0
    if n < UInt64.size then some n else none

/-- A whole number: a sign `+` is allowed, leading zeros are not. -/
def readWhole (text : List Char) : Option Nat :=
  let digits := match text with
    | '+' :: rest => rest
    | text => text
  match digits with
  | '0' :: 'x' :: rest => readBase 16 rest
  | '0' :: 'o' :: rest => readBase 8 rest
  | '0' :: 'b' :: rest => readBase 2 rest
  | '0' :: _ :: _ => none
  | digits => readBase 10 digits

/-- A whole number: a plain scalar, or a literal block with the tag of a whole number. -/
def readTimeout : Node → Scan Nat
  | .scalar tag style text =>
    if style = .plain ∨ (style = .literal ∧ tag = some intTag) then
      match readWhole text.toList with
      | some n => .ok n
      | none => refuse
    else refuse
  | _ => refuse

/-! ## Mappings -/

/-- The keys of a mapping, which are scalars, as texts. -/
def readKeys (d : Document) (members : List (Node × Node)) : Scan (List (String × Node)) :=
  members.mapM fun (k, v) => do return (← readText (d.follow k), v)

/-- The members of a mapping.  Where nothing stands, there are none. -/
def readMembers (d : Document) : Node → Scan (List (String × Node))
  | .map members => readKeys d members
  | .scalar _ .plain text => if text.isEmpty then .ok [] else refuse
  | _ => refuse

/-- The value of a known key, read if it is there and not absent; the key may stand only once. -/
def member {α : Type} (d : Document) (key : String) (read : Node → Scan α)
    (members : List (String × Node)) : Scan (Option α) :=
  match members.filter (·.1 == key) with
  | [] => .ok none
  | [(_, node)] => optional d read node
  | _ => refuse

def readDatabase (d : Document) (node : Node) : Scan DatabaseConfig := do
  let members ← readMembers d node
  return { path := ← member d "path" readText members
           busyTimeoutMs := ← member d "busy_timeout_ms" readTimeout members }

/-- The configuration that a document holds. -/
def ofDocument (d : Document) : Scan Config := do
  let members ← readMembers d (d.follow d.root)
  return { database := ← member d "database" (readDatabase d) members
           format := ← member d "format" readText members }

/-- Reads a configuration. -/
def ofText (text : String) : Scan Config := do
  match ← Document.ofText text with
  | none => return {}
  | some d => ofDocument d

end Config

end FuzzLedger
