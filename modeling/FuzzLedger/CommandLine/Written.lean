import FuzzLedger.CommandLine.Parse

/-!
# Writing arguments

An invocation is written with each option and its value in one argument, `--name=value`, after the
words of its command, and with its positionals behind `--`.  The options that go with any command
may stand anywhere before `--`; `Invocation.WrittenAs` has all these ways.
-/

set_option autoImplicit false

namespace FuzzLedger

namespace CommandLine

/-! ## Values and options -/

/-- The word for a format on the command line. -/
def formatWord : OutputFormat → String
  | .text => "text"
  | .json => "json"

/-- A value as it is written. -/
def Value.word : Value → String
  | .text s => s
  | .int n => toString n
  | .format f => formatWord f
  | .entity e => entityWord e

/-- An option with its value in one argument. -/
def optionWord (o : String × Value) : String := "--" ++ o.1 ++ "=" ++ o.2.word

/-- A list made of two others, the elements of each in their order. -/
inductive Interleaved {α : Type} : List α → List α → List α → Prop where
  | nil : Interleaved [] [] []
  | left {x : α} {xs ys zs : List α} : Interleaved xs ys zs → Interleaved (x :: xs) ys (x :: zs)
  | right {y : α} {xs ys zs : List α} : Interleaved xs ys zs → Interleaved xs (y :: ys) (y :: zs)

end CommandLine

open CommandLine

/-! ## Commands -/

namespace CreateCommand

/-- The place where a row is created. -/
def place : CreateCommand → Place
  | .user _ => .createUser
  | .arch _ => .createArch
  | .host .. => .createHost
  | .opcode .. => .createOpcode
  | .batch .. => .createBatch
  | .success .. => .createSuccess
  | .failure .. => .createFailure
  | .state .. => .createState

/-- The word for the kind of row. -/
def word : CreateCommand → String
  | .user _ => "user"
  | .arch _ => "arch"
  | .host .. => "host"
  | .opcode .. => "opcode"
  | .batch .. => "batch"
  | .success .. => "success"
  | .failure .. => "failure"
  | .state .. => "state"

def options : CreateCommand → List (String × Value)
  | .user _ => []
  | .arch _ => []
  | .host _ archName => [("arch", .text archName)]
  | .opcode _ archName => [("arch", .text archName)]
  | .batch fuzzerHost testingHost username =>
    [("fuzzer-host", .text fuzzerHost), ("testing-host", .text testingHost),
     ("user", .text username)]
  | .success batchId opcodeId count =>
    [("batch", .int batchId), ("opcode", .int opcodeId), ("count", .int count.toInt)]
  | .failure batchId opcodeId pretty arguments =>
    [("batch", .int batchId), ("opcode", .int opcodeId), ("pretty", .text pretty),
     ("arguments", .text arguments)]
  | .state failureId location expected actual =>
    [("failure", .int failureId), ("location", .text location), ("expected", .text expected),
     ("actual", .text actual)]

def positionals : CreateCommand → List Value
  | .user username => [.text username]
  | .arch name => [.text name]
  | .host hostname _ => [.text hostname]
  | .opcode name _ => [.text name]
  | _ => []

end CreateCommand

namespace Command

/-- The place where a command is given. -/
def place : Command → Place
  | .version => .version
  | .init => .init
  | .create row => row.place
  | .showBatch _ => .showBatch
  | .showBatches => .showBatches
  | .delete .. => .delete
  | .ingest _ => .ingest

/-- The words that name a command. -/
def words : Command → List String
  | .version => ["version"]
  | .init => ["init"]
  | .create row => ["create", row.word]
  | .showBatch _ => ["show", "batch"]
  | .showBatches => ["show", "batches"]
  | .delete .. => ["delete"]
  | .ingest _ => ["ingest"]

def options : Command → List (String × Value)
  | .create row => row.options
  | _ => []

def positionals : Command → List Value
  | .create row => row.positionals
  | .showBatch id => [.int id]
  | .delete e id => [.entity e, .int id]
  | .ingest files => files.map .text
  | _ => []

/-- The positionals behind `--`, for a command that has any. -/
def tail (c : Command) : List String :=
  match c.positionals with
  | [] => []
  | values => "--" :: values.map Value.word

end Command

/-! ## Invocations -/

namespace Invocation

/-- The options that go with any command, as far as they are given. -/
def globals (i : Invocation) : List (String × Value) :=
  i.config.toList.map (fun path => ("config", .text path)) ++
    i.db.toList.map (fun path => ("db", .text path)) ++
    i.format.toList.map fun f => ("format", .format f)

/-- The arguments are those of the invocation: the words of the command, then its options in any
order, with the global options anywhere among them; and then the positionals. -/
def WrittenAs (i : Invocation) (args : List String) : Prop :=
  ∃ (options globals : List (String × Value)) (front : List String),
    options.Perm i.command.options ∧ globals.Perm i.globals ∧
      Interleaved (i.command.words ++ options.map optionWord) (globals.map optionWord) front ∧
      args = front ++ i.command.tail

end Invocation

end FuzzLedger
