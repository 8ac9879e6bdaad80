import FuzzLedger.Fault
import FuzzLedger.Text.Hex

/-!
# Names of databases

A database is named by the path of its file.  The empty name and `:memory:` name databases that are
kept only as long as they are open.

A name that starts with `file:` is a resource name: after the scheme may stand an authority, which
must be empty or this host, then comes the path, then a question mark and options divided by
ampersands, then a hash sign and a remark.  A percent sign and two hexadecimal digits stand for an
octet, which divides nothing.  The options say how the database is opened: `mode` whether it may be
written and created, `cache` whether it is shared, `vfs` which part of the system holds it, and three
switches (`nolock`, `readonly_shm`, `immutable`) what may be kept beside it and whether it changes;
others are passed over.  `Location.ofName` reads both kinds of names.
-/

set_option autoImplicit false

namespace FuzzLedger

/-- What may be done with a database. -/
inductive Access where
  | read
  | write
  | create
  /-- It is kept in memory. -/
  | memory
  deriving DecidableEq, Repr

/-- How a log of what is written to a database can be kept beside its file. -/
inductive LogSupport where
  /-- With an index that others share. -/
  | shared
  /-- With an index in memory. -/
  | exclusive
  /-- With an index that may not be written. -/
  | fixedIndex
  /-- Not at all. -/
  | none
  deriving DecidableEq, Repr

/-- Where a database is, and what may be done with it. -/
structure Location where
  /-- The path of its file; `none` if it is kept only as long as it is open. -/
  path : Option String
  access : Access
  log : LogSupport
  /-- Whether it is said never to change. -/
  immutable : Bool
  deriving DecidableEq, Repr

namespace Location

/-! ## Escaped texts -/

/-- A character of a resource name, or an octet that is escaped in it. -/
inductive Piece where
  | char (c : Char)
  | octet (n : Nat)
  deriving DecidableEq, Repr

/-- The pieces of a text.  A percent sign without two digits after it stands for itself. -/
def pieces : List Char → List Piece
  | '%' :: high :: low :: rest =>
    match Text.hexValue? high, Text.hexValue? low with
    | some h, some l => .octet (16 * h + l) :: pieces rest
    | _, _ => .char '%' :: pieces (high :: low :: rest)
  | c :: rest => .char c :: pieces rest
  | [] => []
termination_by text => text.length

/-- The octets of a piece. -/
def Piece.octets : Piece → List UInt8
  | .char c => (String.singleton c).toUTF8.toList
  | .octet n => [n.toUInt8]

/-- A piece as it is written, with lower-case digits. -/
def Piece.written : Piece → List Char
  | .char c => [c]
  | .octet n => ['%', Nat.digitChar (n / 16), Nat.digitChar (n % 16)]

/-- The text that pieces stand for, up to an octet of zero.  If their octets make no text, they stay
as they are written. -/
def text (ps : List Piece) : String :=
  let ps := ps.takeWhile (· != .octet 0)
  match String.fromUTF8? ⟨(ps.flatMap Piece.octets).toArray⟩ with
  | some s => s
  | none => String.ofList (ps.flatMap Piece.written)

/-- Whether a piece is the given sign, not escaped. -/
def isSign (sign : Char) (p : Piece) : Bool := p == .char sign

/-- What stands before the first sign of a kind, and what after it. -/
def cut (sign : Char) (ps : List Piece) : List Piece × List Piece :=
  (ps.takeWhile fun p => !isSign sign p, (ps.dropWhile fun p => !isSign sign p).drop 1)

/-! ## Options -/

/-- An option and its value, which is empty if none is given. -/
def option (ps : List Piece) : String × String :=
  let (name, value) := cut '=' ps
  (text name, text value)

/-- The options of a query; those without a name do not count. -/
def options (query : List Piece) : List (String × String) :=
  ((query.splitOnP (isSign '&')).map option).filter fun o => !o.1.isEmpty

/-- The access that a value of `mode` asks for. -/
def accessOf? : String → Option Access
  | "ro" => some .read
  | "rw" => some .write
  | "rwc" => some .create
  | "memory" => some .memory
  | _ => none

/-- Whether one access may be asked for after another: never for more. -/
def mayFollow : Access → Access → Bool
  | .memory, _ => true
  | .read, _ => true
  | .write, before => before != .read
  | .create, before => before == .create || before == .memory

/-- The digits at the beginning of a text as a number in a base. -/
def numberIn (base : Nat) (text : List Char) : Nat :=
  ((text.map Text.hexValue?).takeWhile fun d => d.any (· < base)).foldl
    (fun n d => n * base + d.getD 0) 0

/-- The number at the beginning of a text, sixteenfold after `0x`; one of more than 31 bits counts
as zero. -/
def leadingNumber (text : List Char) : Nat :=
  let n := match text with
    | '0' :: x :: digit :: rest =>
      if (x == 'x' || x == 'X') && (Text.hexValue? digit).isSome then numberIn 16 (digit :: rest)
      else numberIn 10 text
    | text => numberIn 10 text
  if n < Nat.pow 2 31 then n else 0

/-- Whether a value turns a switch on: by a word, or by a number whose last eight bits are not
zero. -/
def isOn (value : String) : Bool :=
  if value.toList.head?.any Char.isDigit then leadingNumber value.toList % 256 != 0
  else ["on", "yes", "true"].contains (value.map Char.toLower)

/-- What options have said so far.  A switch goes by the first option of its name. -/
structure Choice where
  access : Access := .create
  system : String := "unix"
  noLock : Option Bool := none
  fixedIndex : Option Bool := none
  immutable : Option Bool := none
  deriving DecidableEq, Repr

/-- Follows one option. -/
def Choice.follow (choice : Choice) : String × String → Except EngineError Choice
  | ("mode", value) =>
    match accessOf? value with
    | none => .error (.noSuchMode "access" value)
    | some access =>
      if mayFollow access choice.access then .ok { choice with access }
      else .error (.modeNotAllowed value)
  | ("cache", value) =>
    if value == "shared" || value == "private" then .ok choice
    else .error (.noSuchMode "cache" value)
  | ("vfs", value) => .ok { choice with system := value }
  | ("nolock", value) => .ok { choice with noLock := choice.noLock.or (isOn value) }
  | ("readonly_shm", value) => .ok { choice with fixedIndex := choice.fixedIndex.or (isOn value) }
  | ("immutable", value) => .ok { choice with immutable := choice.immutable.or (isOn value) }
  | _ => .ok choice

/-- The parts of the system that can hold databases; the last keeps them in memory. -/
def systems : List String := ["unix", "unix-none", "unix-dotfile", "unix-excl", "memdb"]

/-! ## Names -/

/-- Paths that name a database kept only as long as it is open. -/
def isEphemeral (path : String) : Bool := path.isEmpty || path == ":memory:"

/-- The log that a choice leaves. -/
def Choice.log (choice : Choice) : LogSupport :=
  if choice.noLock == some true || ["unix-none", "unix-dotfile"].contains choice.system then .none
  else if choice.system == "unix-excl" then .exclusive
  else if choice.fixedIndex == some true then .fixedIndex
  else .shared

/-- The location that a choice and a path make. -/
def ofChoice (choice : Choice) (path : String) : Location :=
  let unnamed := isEphemeral path || choice.access == .memory
  { path := if unnamed || choice.system == "memdb" then none else some path
    access := choice.access
    log := choice.log
    immutable := !unnamed && choice.immutable == some true }

/-- The rest of a resource name after its scheme and authority. -/
def afterAuthority : List Char → Except EngineError (List Char)
  | '/' :: '/' :: rest =>
    let authority := String.ofList (rest.takeWhile (· != '/'))
    if authority.isEmpty || authority == "localhost" then .ok (rest.dropWhile (· != '/'))
    else .error (.badAuthority authority)
  | rest => .ok rest

/-- The location of a resource name after its scheme. -/
def ofResource (name : List Char) : Except EngineError Location := do
  let ps := (cut '#' (pieces (← afterAuthority name))).1
  let (path, query) := cut '?' ps
  let choice ← (options query).foldlM Choice.follow {}
  if systems.contains choice.system then return ofChoice choice (text path)
  else throw (.noSuchSystem choice.system)

/-- The location that a name stands for. -/
def ofName (name : String) : Except Fault Location :=
  if name.toList.contains '\x00' then
    .error (.nulInName (String.ofList (name.toList.takeWhile (· != '\x00'))).utf8ByteSize)
  else
    match name.toList with
    | 'f' :: 'i' :: 'l' :: 'e' :: ':' :: rest =>
      match ofResource rest with
      | .ok location => .ok location
      | .error error => .error (.engine error)
    | _ => .ok (ofChoice {} name)

end Location

end FuzzLedger
