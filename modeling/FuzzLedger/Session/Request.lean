import FuzzLedger.Codec.Report
import FuzzLedger.Session.Call

/-!
# Requests

The writing operations of the ledger as data, so that runs of them can be spoken of.
`Session.perform` carries out a request; `Session.after` is the session after it.
-/

set_option autoImplicit false

namespace FuzzLedger

/-- A writing operation with its arguments. -/
inductive Request where
  | createUser (username : String)
  | createArch (name : String)
  | createHost (hostname : String) (archId : Int)
  | createOpcode (name : String) (archId : Int)
  | createBatch (now : Stamp) (batch : NewBatch)
  | addTestSuccess (batchId opcodeId : Int) (count : Int32)
  | addTestFailure (failure : NewTestFailure)
  | addTestFailureState (state : NewTestFailureState)
  | ensureUser (username : String)
  | ensureArch (name : String)
  | ensureHost (hostname : String) (archId : Int)
  | ensureOpcode (name : String) (archId : Int)
  | record (now : Stamp) (report : Report)
  | delete (e : Entity) (id : Int)

/-- What a request answers. -/
inductive Answer where
  | item (e : Entity) (row : Item e)
  | summary (s : Summary)
  | deleted (found : Bool)

/-- An answer as JSON. -/
def Answer.toJson : Answer → Json.Value
  | .item e row => Item.toJson e row
  | .summary s => s.toJson
  | .deleted found => .bool found

namespace Session

/-- Carries out a request. -/
def perform : Request → Call Answer
  | .createUser username => return .item .user (← createUser username)
  | .createArch name => return .item .arch (← createArch name)
  | .createHost hostname archId => return .item .host (← createHost hostname archId)
  | .createOpcode name archId => return .item .opcode (← createOpcode name archId)
  | .createBatch now b => return .item .batch (← createBatch now b)
  | .addTestSuccess batchId opcodeId count =>
    return .item .testSuccess (← addTestSuccess batchId opcodeId count)
  | .addTestFailure f => return .item .testFailure (← addTestFailure f)
  | .addTestFailureState d => return .item .testFailureState (← addTestFailureState d)
  | .ensureUser username => return .item .user (← ensureUser username)
  | .ensureArch name => return .item .arch (← ensureArch name)
  | .ensureHost hostname archId => return .item .host (← ensureHost hostname archId)
  | .ensureOpcode name archId => return .item .opcode (← ensureOpcode name archId)
  | .record now report => return .summary (← record now report)
  | .delete e id => return .deleted (← delete e id)

/-- The session after a request, whether it succeeded or failed. -/
def after (s : Session) (r : Request) : Session :=
  match perform r s with
  | .ok _ s => s
  | .error _ s => s

end Session

end FuzzLedger
