import FuzzLedger.Command.Run
import FuzzLedger.CommandLine.Parse

/-!
# Verdicts

A run of the program comes to a `Verdict`: either its arguments are no invocation, or it was carried
out.  A verdict says what goes to the two output streams and with which code the program ends:
0 after a success or a request for help or the version, 1 after a failure, 2 after arguments that
are no invocation, 101 after a fault for which the program breaks off.
-/

set_option autoImplicit false

namespace FuzzLedger

/-! ## Reports of failures -/

/-- A cause in a report, its further lines indented like its first. -/
def indentCause (start margin cause : String) : String :=
  start ++ (s!"\n{margin}").intercalate ((cause.toList.splitOn '\n').map String.ofList) ++ "\n"

/-- The causes of a report, numbered from `n`. -/
def numberCauses : Nat → List String → String
  | _, [] => ""
  | n, cause :: causes =>
    let digits := toString n
    let blanks := String.ofList (List.replicate (5 - digits.length) ' ')
    indentCause s!"{blanks}{digits}: " "       " cause ++ numberCauses (n + 1) causes

/-- The report of a failure: its outermost line, and under it the causes, numbered if there are
several. -/
def Failure.report (f : Failure) : String :=
  match f.chain with
  | [] => "Error: \n"
  | [only] => s!"Error: {only}\n"
  | [outer, cause] => s!"Error: {outer}\n\nCaused by:\n" ++ indentCause "    " "    " cause
  | outer :: causes => s!"Error: {outer}\n\nCaused by:\n" ++ numberCauses 0 causes

/-- Whether the program breaks off where the fault comes up, instead of ending with a failure. -/
def Fault.breaksOff : Fault → Bool
  | .timeoutTooLong => true
  | _ => false

/-- What is said of a failure on the standard error. -/
def Failure.announcement (f : Failure) : String :=
  if f.fault.breaksOff then "thread 'main' panicked: " ++ f.fault.message?.getD "" ++ "\n"
  else f.report

/-! ## Usage -/

/-- What is said of arguments that are no invocation. -/
def Usage.message : Usage → String
  | .help => "help was asked for"
  | .version => "the version was asked for"
  | .helpOnMissing => "a command is needed"
  | .missingCommand => "a command is needed after the options"
  | .invalidCommand => "there is no such command"
  | .unknownArgument => "there is no such argument"
  | .invalidValue => "an option has no value that it can take"
  | .invalidNumber => "a number was expected"
  | .missingRequired => "an argument is missing"
  | .repeated => "an option was given twice"
  | .surplusValue => "an option was given a value that it does not take"

/-- A summary of the command line. -/
def helpText : String :=
  "\n".intercalate
    ["Usage: fuzzermon [--config FILE] [--db FILE] [--format text|json] COMMAND",
     "",
     "  version",
     "  init",
     "  create user USERNAME",
     "  create arch NAME",
     "  create host HOSTNAME --arch NAME",
     "  create opcode NAME --arch NAME",
     "  create batch --fuzzer-host NAME --testing-host HOSTNAME --user USERNAME",
     "  create success --batch ID --opcode ID --count N",
     "  create failure --batch ID --opcode ID --pretty TEXT --arguments TEXT",
     "  create state --failure ID --location TEXT --expected TEXT --actual TEXT",
     "  show batch ID",
     "  show batches",
     "  delete user|arch|host|batch|opcode|success|failure|state ID",
     "  ingest FILE...",
     ""]

/-- What the option `--version` prints. -/
def versionOptionLine : String := s!"fuzzermon {programVersion}\n"

/-! ## Verdicts -/

/-- What a run of the program comes to. -/
inductive Verdict where
  | usage (reason : Usage)
  | ran (outcome : Outcome)

namespace Verdict

/-- The code with which the program ends. -/
def exitCode : Verdict → Nat
  | .usage .help => 0
  | .usage .version => 0
  | .usage _ => 2
  | .ran outcome =>
    match outcome.failure with
    | none => 0
    | some f => if f.fault.breaksOff then 101 else 1

/-- The standard output. -/
def stdout : Verdict → String
  | .usage .help => helpText
  | .usage .version => versionOptionLine
  | .usage _ => ""
  | .ran outcome => outcome.stdout

/-- The standard error. -/
def stderr : Verdict → String
  | .usage .help => ""
  | .usage .version => ""
  | .usage reason => s!"error: {reason.message}\n\n" ++ helpText
  | .ran outcome => (outcome.failure.map Failure.announcement).getD ""

end Verdict

end FuzzLedger
