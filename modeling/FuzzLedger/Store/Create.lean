import FuzzLedger.Store.Insert
import FuzzLedger.Store.Query

/-!
# Creating rows

`create…` and `add…` check the lengths of their texts in the order of declaration and then add one
row.  `ensure…` gives the row with a name, creating it if there is none: users and architectures
are added unless their name exists and then looked up, which spends an identifier each time; hosts
and opcodes are looked up first.
-/

set_option autoImplicit false

namespace FuzzLedger

namespace Action

/-! ## New rows -/

def createUser (username : String) : Action User := do
  checkLength "username" username Limit.username
  let row ← insertNew .user fun id => ⟨id, username⟩
  return ⟨row.id, username⟩

def createArch (name : String) : Action Arch := do
  checkLength "name" name Limit.archName
  let row ← insertNew .arch fun id => ⟨id, name⟩
  return ⟨row.id, name⟩

def createHost (hostname : String) (archId : Int) : Action Host := do
  checkLength "hostname" hostname Limit.hostname
  let row ← insertNew .host fun id => ⟨id, hostname, archId⟩
  return ⟨row.id, hostname, archId⟩

def createOpcode (name : String) (archId : Int) : Action Opcode := do
  checkLength "name" name Limit.opcodeName
  let row ← insertNew .opcode fun id => ⟨id, name, archId⟩
  return ⟨row.id, name, archId⟩

/-- Adds a batch submitted now. -/
def createBatch (now : Stamp) (b : NewBatch) : Action Batch := do
  checkLength "fuzzer_host" b.fuzzerHost Limit.fuzzerHost
  let row ← insertNew .batch fun id => ⟨id, b.fuzzerHost, b.testingHostId, b.userId, now.text⟩
  return ⟨row.id, b.fuzzerHost, b.testingHostId, b.userId, now.time⟩

def addTestSuccess (batchId opcodeId : Int) (count : Int32) : Action TestSuccess := do
  let row ← insertNew .testSuccess fun id => ⟨id, batchId, opcodeId, .int count.toInt⟩
  return ⟨row.id, batchId, opcodeId, count⟩

def addTestFailure (f : NewTestFailure) : Action TestFailure := do
  checkLength "pretty" f.pretty Limit.failurePretty
  let row ← insertNew .testFailure fun id => ⟨id, f.batchId, f.opcodeId, f.pretty, f.arguments⟩
  return ⟨row.id, f.batchId, f.opcodeId, f.pretty, f.arguments⟩

def addTestFailureState (d : NewTestFailureState) : Action TestFailureState := do
  checkLength "location" d.location Limit.stateLocation
  checkLength "expected_value" d.expected Limit.stateValue
  checkLength "actual_value" d.actual Limit.stateValue
  let row ← insertNew .testFailureState fun id =>
    ⟨id, d.failureId, d.location, d.expected, d.actual⟩
  return ⟨row.id, d.failureId, d.location, d.expected, d.actual⟩

/-! ## Rows by name, created on first sight -/

/-- The identifier of the row with a name, which must exist. -/
def findNamed (e : Entity) (name : String) : Action Int := fun s =>
  match (s.table e).findNamed? name with
  | some r => .ok (Row.id e r) s
  | none => .error ⟨.noRow, []⟩ s

def ensureUser (username : String) : Action User := do
  checkLength "username" username Limit.username
  insertIfNewName .user fun id => ⟨id, username⟩
  return ⟨← findNamed .user username, username⟩

def ensureArch (name : String) : Action Arch := do
  checkLength "name" name Limit.archName
  insertIfNewName .arch fun id => ⟨id, name⟩
  return ⟨← findNamed .arch name, name⟩

/-- The host with a name; a known host does not change its architecture. -/
def ensureHost (hostname : String) (archId : Int) : Action Host := do
  match (← get).findHost? hostname with
  | .error fault => fail fault
  | .ok none => createHost hostname archId
  | .ok (some host) =>
    if host.archId = archId then return host
    else fail (.hostArchMismatch host.hostname host.archId archId)

/-- The oldest opcode with a name on an architecture. -/
def ensureOpcode (name : String) (archId : Int) : Action Opcode := do
  match (← get).opcodes.rows.find? fun o => o.archId == archId && o.name == .text name with
  | some opcode => return ⟨opcode.id, name, archId⟩
  | none => createOpcode name archId

end Action

end FuzzLedger
