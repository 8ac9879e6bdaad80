import FuzzLedger.Session.Basic

/-!
# Calls on a session

The writing operations of the ledger on an open database.  A call that fails leaves the tables as
they were.  Inside a transaction that holds too, except that running out of identifiers ends the
transaction (`Session.write`); only adding a batch, which answers the new row in the same statement,
undoes nothing but itself even then.

`Session.record` stores a whole report in a transaction of its own: if anything fails, the image is
what it was before.
-/

set_option autoImplicit false

namespace FuzzLedger.Session

/-- The failure of a call that cannot succeed: a text that is too long, or else the given one. -/
def checkedFailure (checks : List BoundedText) (otherwise : Failure) : Failure :=
  match checks.find? fun b => b.limit < b.text.length with
  | some b => ⟨.tooLong ⟨b.column, b.text.length, b.limit⟩, []⟩
  | none => otherwise

/-- The failure of a call without tables: a text that is too long, or else the first table that the
call comes to. -/
def bareFailure (checks : List BoundedText) (e : Entity) : Failure :=
  checkedFailure checks (noTable e)

/-! ## New rows -/

def createUser (username : String) : Call User :=
  write (bareFailure [⟨"username", Limit.username, username⟩] .user) (Action.createUser username)

def createArch (name : String) : Call Arch :=
  write (bareFailure [⟨"name", Limit.archName, name⟩] .arch) (Action.createArch name)

def createHost (hostname : String) (archId : Int) : Call Host :=
  write (bareFailure [⟨"hostname", Limit.hostname, hostname⟩] .host)
    (Action.createHost hostname archId)

def createOpcode (name : String) (archId : Int) : Call Opcode :=
  write (bareFailure [⟨"name", Limit.opcodeName, name⟩] .opcode) (Action.createOpcode name archId)

def createBatch (now : Stamp) (b : NewBatch) : Call Batch :=
  act (bareFailure [⟨"fuzzer_host", Limit.fuzzerHost, b.fuzzerHost⟩] .batch)
    (Action.createBatch now b)

def addTestSuccess (batchId opcodeId : Int) (count : Int32) : Call TestSuccess :=
  write (noTable .testSuccess) (Action.addTestSuccess batchId opcodeId count)

def addTestFailure (f : NewTestFailure) : Call TestFailure :=
  write (bareFailure [⟨"pretty", Limit.failurePretty, f.pretty⟩] .testFailure)
    (Action.addTestFailure f)

def addTestFailureState (d : NewTestFailureState) : Call TestFailureState :=
  write
    (bareFailure
      [⟨"location", Limit.stateLocation, d.location⟩,
       ⟨"expected_value", Limit.stateValue, d.expected⟩,
       ⟨"actual_value", Limit.stateValue, d.actual⟩] .testFailureState)
    (Action.addTestFailureState d)

/-! ## Rows by name -/

def ensureUser (username : String) : Call User :=
  write (bareFailure [⟨"username", Limit.username, username⟩] .user) (Action.ensureUser username)

def ensureArch (name : String) : Call Arch :=
  write (bareFailure [⟨"name", Limit.archName, name⟩] .arch) (Action.ensureArch name)

def ensureHost (hostname : String) (archId : Int) : Call Host :=
  write (noTable .host) (Action.ensureHost hostname archId)

def ensureOpcode (name : String) (archId : Int) : Call Opcode :=
  write (noTable .opcode) (Action.ensureOpcode name archId)

/-! ## Reports and deletions -/

/-- Recording by calls on a session, one statement after the other. -/
def recorder : Recorder Call where
  within := within
  ensureUser := ensureUser
  ensureArch := ensureArch
  ensureHost := ensureHost
  ensureOpcode := ensureOpcode
  createBatch := createBatch
  addTestSuccess := addTestSuccess
  addTestFailure := addTestFailure
  addTestFailureState := addTestFailureState

/-- Stores a report in a transaction of its own. -/
def record (now : Stamp) (r : Report) : Call Summary := transact (recorder.recordReport now r)

/-- Deletes a row and all that depends on it; answers whether there was such a row. -/
def delete (e : Entity) (id : Int) : Call Bool := write (noTable e) (Action.delete e id)

/-! ## Past the checks -/

/-- Inserts a row column by column; answers its identifier. -/
def insertCells (now : Stamp) (e : Entity) (cells : Cells) : Call Int :=
  write (noTable e) (Action.insertCells now e cells)

/-- Sets the submission time of the selected batches; answers their number. -/
def setSubmittedAt (selected : StoredBatch → Bool) (value : Cell) : Call Nat :=
  write (noTable .batch) (Action.setSubmittedAt selected value)

/-- Sets the fuzzer host of a batch; answers the number of batches set. -/
def setFuzzerHost (id : Int) (value : Cell) : Call Nat :=
  write (noTable .batch) (Action.setFuzzerHost id value)

end FuzzLedger.Session
