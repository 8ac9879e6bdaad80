import FuzzLedger.CommandLine.Basic

/-!
# Reading arguments

Arguments are read from left to right.  `Place` says how far into the commands the reader is; each
place has its options, its positionals and the commands below it.  The options `--config`, `--db`
and `--format` may stand at every place, and the innermost counts.

A value is looked at when the argument after it is understood, not before: so an unknown option
after a bad value is the first thing reported, and a known option is not.  `Progress.settle` is
this step.
-/

set_option autoImplicit false

namespace FuzzLedger

namespace CommandLine

/-! ## Values -/

/-- What a value may be. -/
inductive ValueKind where
  | text
  | path
  | int64
  | int32
  | format
  | entity
  deriving DecidableEq, Repr

/-- A value that was understood. -/
inductive Value where
  | text (s : String)
  | int (n : Int)
  | format (f : OutputFormat)
  | entity (e : Entity)
  deriving DecidableEq, Repr

/-- The number that decimal digits stand for; there must be one. -/
def readDigits (digits : List Char) : Option Nat :=
  if digits.isEmpty ∨ !digits.all (fun c => '0' ≤ c && c ≤ '9') then none
  else some (digits.foldl (fun n c => 10 * n + (c.toNat - 48)) 0)

/-- A whole number with an optional sign. -/
def readInt : List Char → Option Int
  | '+' :: digits => (readDigits digits).map fun n => (n : Int)
  | '-' :: digits => (readDigits digits).map fun n => -(n : Int)
  | digits => (readDigits digits).map fun n => (n : Int)

/-- A whole number from `low` to `high`. -/
def readRange (low high : Int) (word : String) : Except Usage Value :=
  match readInt word.toList with
  | some n => if low ≤ n ∧ n ≤ high then .ok (.int n) else .error .invalidNumber
  | none => .error .invalidNumber

def formatOf? (word : String) : Option OutputFormat :=
  if word = "text" then some .text else if word = "json" then some .json else none

/-- The word for a kind of row on the command line. -/
def entityWord : Entity → String
  | .user => "user"
  | .arch => "arch"
  | .host => "host"
  | .batch => "batch"
  | .opcode => "opcode"
  | .testSuccess => "success"
  | .testFailure => "failure"
  | .testFailureState => "state"

def entityOf? (word : String) : Option Entity := Entity.all.find? fun e => entityWord e == word

/-- Understands a value of a kind. -/
def ValueKind.read : ValueKind → String → Except Usage Value
  | .text, word => .ok (.text word)
  | .path, word => if word.isEmpty then .error .invalidValue else .ok (.text word)
  | .int64, word => readRange Int64.minValue.toInt Int64.maxValue.toInt word
  | .int32, word => readRange Int32.minValue.toInt Int32.maxValue.toInt word
  | .format, word =>
    match formatOf? word with
    | some f => .ok (.format f)
    | none => .error .invalidValue
  | .entity, word =>
    match entityOf? word with
    | some e => .ok (.entity e)
    | none => .error .invalidValue

/-! ## Places -/

/-- How far into the commands the reader is. -/
inductive Place where
  | root
  | version
  | init
  | create
  | createUser
  | createArch
  | createHost
  | createOpcode
  | createBatch
  | createSuccess
  | createFailure
  | createState
  | showRows
  | showBatch
  | showBatches
  | delete
  | ingest
  deriving DecidableEq, Repr

namespace Place

/-- The commands below a place. -/
def children : Place → List (String × Place)
  | .root =>
    [("version", .version), ("init", .init), ("create", .create), ("show", .showRows),
     ("delete", .delete), ("ingest", .ingest)]
  | .create =>
    [("user", .createUser), ("arch", .createArch), ("host", .createHost),
     ("opcode", .createOpcode), ("batch", .createBatch), ("success", .createSuccess),
     ("failure", .createFailure), ("state", .createState)]
  | .showRows => [("batch", .showBatch), ("batches", .showBatches)]
  | _ => []

def child? (p : Place) (word : String) : Option Place := p.children.lookup word

def hasChildren (p : Place) : Bool := !p.children.isEmpty

/-- The options that may stand at every place. -/
def globalOptions : List (String × ValueKind) :=
  [("config", .path), ("db", .path), ("format", .format)]

/-- The options of a place's own. -/
def ownOptions : Place → List (String × ValueKind)
  | .createHost => [("arch", .text)]
  | .createOpcode => [("arch", .text)]
  | .createBatch => [("fuzzer-host", .text), ("testing-host", .text), ("user", .text)]
  | .createSuccess => [("batch", .int64), ("opcode", .int64), ("count", .int32)]
  | .createFailure =>
    [("batch", .int64), ("opcode", .int64), ("pretty", .text), ("arguments", .text)]
  | .createState =>
    [("failure", .int64), ("location", .text), ("expected", .text), ("actual", .text)]
  | _ => []

def optionKind? (p : Place) (name : String) : Option ValueKind :=
  (p.ownOptions ++ globalOptions).lookup name

/-- The positionals of a place. -/
def positionals : Place → List ValueKind
  | .createUser => [.text]
  | .createArch => [.text]
  | .createHost => [.text]
  | .createOpcode => [.text]
  | .showBatch => [.int64]
  | .delete => [.entity, .int64]
  | .ingest => [.path]
  | _ => []

/-- Whether the last positional may be repeated. -/
def repeats (p : Place) : Bool := p == .ingest

end Place

/-! ## Progress at a place -/

/-- What a value belongs to. -/
inductive Slot where
  | option (name : String) (kind : ValueKind)
  | positional (kind : ValueKind)
  deriving DecidableEq, Repr

/-- The arguments understood at a place, and those still to be looked at. -/
structure Progress where
  options : List (String × Value) := []
  positionals : List Value := []
  /-- What came last, with its values. -/
  pending : Option (Slot × List String) := none
  /-- Whether the option that came last still lacks its value. -/
  awaiting : Bool := false
  /-- Whether `--` has ended the options. -/
  ended : Bool := false
  /-- How many positionals have begun. -/
  begun : Nat := 0

/-- The arguments of a place. -/
structure Matched where
  place : Place
  options : List (String × Value)
  positionals : List Value

namespace Progress

/-- Looks at what came last. -/
def settle (st : Progress) : Except Usage Progress :=
  match st.pending with
  | none => .ok st
  | some (.option name kind, words) =>
    match words with
    | [] => .error .invalidValue
    | word :: _ =>
      if (st.options.lookup name).isSome then .error .repeated
      else do
        let value ← kind.read word
        return { st with
          options := st.options ++ [(name, value)], pending := none, awaiting := false }
  | some (.positional kind, words) => do
    let values ← words.mapM kind.read
    return { st with positionals := st.positionals ++ values, pending := none }

/-- An option, with its value if it is in the same argument. -/
def takeOption (st : Progress) (name : String) (kind : ValueKind) :
    Option String → Except Usage Progress
  | some word => do
    let st ← st.settle
    settle { st with pending := some (.option name kind, [word]), awaiting := false }
  | none => do
    let st ← st.settle
    return { st with pending := some (.option name kind, []), awaiting := true }

/-- The value of the option that came last. -/
def takeValue (st : Progress) (word : String) : Progress :=
  { st with
    pending := st.pending.map fun (slot, words) => (slot, words ++ [word])
    awaiting := false }

/-- A positional. -/
def takePositional (place : Place) (st : Progress) (word : String) : Except Usage Progress :=
  match place.repeats, st.pending with
  | true, some (.positional kind, words) =>
    .ok { st with pending := some (.positional kind, words ++ [word]) }
  | again, _ =>
    match place.positionals[if again then 0 else st.begun]? with
    | some kind => do
      let st ← st.settle
      return { st with pending := some (.positional kind, [word]), begun := st.begun + 1 }
    | none =>
      let isCommand := (place.child? word).isSome || word == "help"
      if place.hasChildren && !(st.ended && isCommand) then .error .invalidCommand
      else .error .unknownArgument

end Progress

/-! ## Commands from their arguments -/

namespace Matched

def text? (m : Matched) (name : String) : Option String :=
  match m.options.lookup name with
  | some (.text s) => some s
  | _ => none

def int? (m : Matched) (name : String) : Option Int :=
  match m.options.lookup name with
  | some (.int n) => some n
  | _ => none

def format? (m : Matched) : Option OutputFormat :=
  match m.options.lookup "format" with
  | some (.format f) => some f
  | _ => none

/-- The text of a value. -/
def textOf? : Value → Option String
  | .text s => some s
  | _ => none

/-- The command of a place, unless something that it needs is missing. -/
def command? (m : Matched) : Option Command :=
  match m.place, m.positionals with
  | .version, _ => some .version
  | .init, _ => some .init
  | .createUser, [.text username] => some (.create (.user username))
  | .createArch, [.text name] => some (.create (.arch name))
  | .createHost, [.text hostname] => do
    return .create (.host hostname (← m.text? "arch"))
  | .createOpcode, [.text name] => do
    return .create (.opcode name (← m.text? "arch"))
  | .createBatch, _ => do
    return .create (.batch (← m.text? "fuzzer-host") (← m.text? "testing-host") (← m.text? "user"))
  | .createSuccess, _ => do
    return .create (.success (← m.int? "batch") (← m.int? "opcode")
      (Int32.ofInt (← m.int? "count")))
  | .createFailure, _ => do
    return .create (.failure (← m.int? "batch") (← m.int? "opcode") (← m.text? "pretty")
      (← m.text? "arguments"))
  | .createState, _ => do
    return .create (.state (← m.int? "failure") (← m.text? "location") (← m.text? "expected")
      (← m.text? "actual"))
  | .showBatch, [.int id] => some (.showBatch id)
  | .showBatches, _ => some .showBatches
  | .delete, [.entity e, .int id] => some (.delete e id)
  | .ingest, values =>
    match values.filterMap textOf? with
    | [] => none
    | files => some (.ingest files)
  | _, _ => none

end Matched

/-! ## Reading all arguments -/

/-- The end of the arguments of a place, above the places in `inner`. -/
def finish (place : Place) (st : Progress) (inner : List Matched) :
    Except Usage (List Matched) := do
  let st ← st.settle
  let here : Matched := ⟨place, st.options, st.positionals⟩
  if place.hasChildren then
    if !inner.isEmpty then return here :: inner
    else if st.options.isEmpty then .error .helpOnMissing
    else .error .missingCommand
  else if here.command?.isSome then return [here]
  else .error .missingRequired

/-- The answer to `help` followed by the words of a command. -/
def helpOn (place : Place) : List String → Usage
  | [] => .help
  | word :: rest =>
    match place.child? word with
    | some child => helpOn child rest
    | none =>
      if word == "help" && place.hasChildren && rest.isEmpty then .help else .invalidCommand

/-- A long option: its name, and its value if it has one in the same argument. -/
def longOption? (word : String) : Option (String × Option String) :=
  match word.toList with
  | '-' :: '-' :: body =>
    let name := body.takeWhile (· ≠ '=')
    match body.dropWhile (· ≠ '=') with
    | [] => some (String.ofList name, none)
    | _ :: value => some (String.ofList name, some (String.ofList value))
  | _ => none

/-- The first letter of a group of short options. -/
def shortOption? (word : String) : Option Char :=
  match word.toList with
  | '-' :: c :: _ => if c = '-' then none else some c
  | _ => none

/-- An option asks for help, or at the root for the version. -/
def request? (place : Place) (isHelp isVersion : Bool) : Option Usage :=
  if isHelp then some .help
  else if isVersion && place == .root then some .version
  else none

/-- Understands one argument that is no command. -/
def takeArgument (place : Place) (st : Progress) (word : String) : Except Usage Progress :=
  if st.ended then st.takePositional place word
  else if word = "--" then .ok { st with ended := true }
  else
    match longOption? word with
    | some (name, value) =>
      match request? place (name == "help") (name == "version") with
      | some usage =>
        if value.isSome then .error .surplusValue
        else do
          let _ ← st.settle
          .error usage
      | none =>
        match place.optionKind? name with
        | some kind => st.takeOption name kind value
        | none => .error .unknownArgument
    | none =>
      match shortOption? word with
      | some letter =>
        match request? place (letter == 'h') (letter == 'V') with
        | some usage => do
          let _ ← st.settle
          .error usage
        | none => .error .unknownArgument
      | none => if st.awaiting then .ok (st.takeValue word) else st.takePositional place word

/-- Reads the arguments at a place and at those below it. -/
def scan : Place → Progress → List String → Except Usage (List Matched)
  | place, st, [] => finish place st []
  | place, st, word :: rest =>
    let mayBeCommand := !st.ended && !st.awaiting
    match if mayBeCommand then place.child? word else none with
    | some child => do
      let inner ← scan child {} rest
      finish place st inner
    | none =>
      if mayBeCommand && place.hasChildren && word == "help" then .error (helpOn place rest)
      else do
        let st ← takeArgument place st word
        scan place st rest

/-- The innermost value of an option. -/
def innermost {α : Type} (get : Matched → Option α) (levels : List Matched) : Option α :=
  levels.reverse.findSome? get

end CommandLine

open CommandLine in
/-- Reads the arguments of the program. -/
def Invocation.parse (args : List String) : Except Usage Invocation := do
  let levels ← scan .root {} args
  match levels.getLast?.bind Matched.command? with
  | some command =>
    return {
      config := innermost (fun m => m.text? "config") levels
      db := innermost (fun m => m.text? "db") levels
      format := innermost Matched.format? levels
      command }
  | none => .error .missingRequired

end FuzzLedger
