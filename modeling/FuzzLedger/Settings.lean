import FuzzLedger.CommandLine.Basic
import FuzzLedger.Config

/-!
# Settings

The settings of a run: options of the command line win over the configuration, which wins over the
defaults.
-/

set_option autoImplicit false

namespace FuzzLedger

/-- What a run works with. -/
structure Settings where
  dbPath : String
  busyTimeoutMs : Nat
  format : OutputFormat
  deriving DecidableEq, Repr

namespace Settings

def defaultDb : String := "fuzzermon.sqlite3"

def defaultBusyTimeoutMs : Nat := 5000

/-- The configuration file that is read if none is named. -/
def defaultConfig : String := "fuzzermon.yaml"

/-- The format that a configuration asks for: only `json` asks for JSON. -/
def formatOf (name : String) : OutputFormat := if name = "json" then .json else .text

/-- The settings of an invocation, with its configuration if there is one. -/
def resolve (i : Invocation) (config : Option Config) : Settings :=
  let database := (config.bind Config.database).getD {}
  { dbPath := (i.db.or database.path).getD defaultDb
    busyTimeoutMs := database.busyTimeoutMs.getD defaultBusyTimeoutMs
    format := (i.format.or ((config.bind Config.format).map formatOf)).getD .text }

end Settings

end FuzzLedger
