import FuzzLedger.Report.Basic
import FuzzLedger.Store.Create

/-!
# Recording a report

Recording stores a batch with all its results.  Users, architectures, hosts and opcodes are created
on first sight and used again afterwards; an opcode that was resolved for an earlier entry of the
same report is remembered, so it is looked up once.

Recording is written once, over the operations that a `Recorder` provides.  `Action.recordReport`
takes them as actions on a store: it stops at the first failure and leaves what it has stored by
then.  A session takes them as statements of a transaction (`Session.record`), which undoes that.
-/

set_option autoImplicit false

namespace FuzzLedger

/-- The opcodes resolved so far, by name. -/
abbrev KnownOpcodes := List (String × Int)

/-- How many rows have been stored so far. -/
structure Tally where
  successes : Nat := 0
  failures : Nat := 0
  states : Nat := 0
  deriving DecidableEq, Repr

/-- The operations that recording is made of. -/
structure Recorder (m : Type → Type) where
  within : {α : Type} → String → m α → m α
  ensureUser : String → m User
  ensureArch : String → m Arch
  ensureHost : String → Int → m Host
  ensureOpcode : String → Int → m Opcode
  createBatch : Stamp → NewBatch → m Batch
  addTestSuccess : Int → Int → Int32 → m TestSuccess
  addTestFailure : NewTestFailure → m TestFailure
  addTestFailureState : NewTestFailureState → m TestFailureState

namespace Recorder

variable {m : Type → Type} [Monad m] (w : Recorder m)

/-- The identifier of an opcode on an architecture, and the opcodes known then. -/
def resolveOpcode (archId : Int) (known : KnownOpcodes) (name : String) :
    m (Int × KnownOpcodes) :=
  match known.lookup name with
  | some id => pure (id, known)
  | none => do
    let opcode ← w.ensureOpcode name archId
    return (opcode.id, (name, opcode.id) :: known)

/-- Stores the differences of a failure; answers the tally after them. -/
def recordDiffs (index : Nat) (failureId : Int) : Tally → List StateDiff → m Tally
  | tally, [] => pure tally
  | tally, d :: diffs => do
    let _ ← w.within s!"entry {index} state {d.location}"
      (w.addTestFailureState ⟨failureId, d.location, d.expected, d.actual⟩)
    recordDiffs index failureId { tally with states := tally.states + 1 } diffs

/-- Stores the outcome that an entry reports, for a resolved opcode. -/
def recordOutcome (index : Nat) (batchId opcodeId : Int) (tally : Tally) : Entry → m Tally
  | .success _ count => do
    let _ ← w.addTestSuccess batchId opcodeId count
    return { tally with successes := tally.successes + 1 }
  | .failure _ pretty arguments state => do
    let failure ← w.within s!"entry {index}"
      (w.addTestFailure ⟨batchId, opcodeId, pretty, arguments⟩)
    let tally ← w.recordDiffs index failure.id tally state
    return { tally with failures := tally.failures + 1 }

/-- Stores the entries of a report from the given index on. -/
def recordEntries (batchId archId : Int) :
    Nat → KnownOpcodes → Tally → List Entry → m Tally
  | _, _, tally, [] => pure tally
  | index, known, tally, entry :: entries => do
    let (opcodeId, known) ← w.within s!"entry {index}" (w.resolveOpcode archId known entry.opcode)
    let tally ← w.recordOutcome index batchId opcodeId tally entry
    recordEntries batchId archId (index + 1) known tally entries

/-- Stores a report. -/
def recordReport (now : Stamp) (r : Report) : m Summary := do
  let user ← w.within "user" (w.ensureUser r.user)
  let arch ← w.within "arch" (w.ensureArch r.arch)
  let host ← w.within "testing host" (w.ensureHost r.testingHost arch.id)
  let batch ← w.createBatch now ⟨r.fuzzingHost, host.id, user.id⟩
  let tally ← w.recordEntries batch.id arch.id 0 [] {} r.entries
  return ⟨batch.id, tally.successes, tally.failures, tally.states⟩

end Recorder

namespace Action

/-- Recording by actions on a store. -/
def recorder : Recorder Action where
  within := within
  ensureUser := ensureUser
  ensureArch := ensureArch
  ensureHost := ensureHost
  ensureOpcode := ensureOpcode
  createBatch := createBatch
  addTestSuccess := addTestSuccess
  addTestFailure := addTestFailure
  addTestFailureState := addTestFailureState

/-- Stores a report. -/
def recordReport (now : Stamp) (r : Report) : Action Summary := recorder.recordReport now r

end Action

end FuzzLedger
