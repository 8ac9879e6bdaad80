import FuzzLedger.Proofs.Recording
import FuzzLedger.Proofs.Run

/-!
# A recorded report can be read back

`Recorded` says which rows recording has stored; here the queries are run on them.

* `Store.GivesBack` — the queries on a store give back a report: the batch with its host,
  architecture and user, its successes, its failures and the states of each of them.
* `recordReport_givesBack` — so they do in any coherent store in which a recording succeeded.
  A row that was there before refers to another batch, because the identifier of the new batch is
  larger than any that the table has given out.
* `record_reads_back` — so they do after every run.
-/

set_option autoImplicit false

namespace FuzzLedger

/-- The difference that a state holds. -/
def TestFailureState.diff (d : TestFailureState) : StateDiff := ⟨d.location, d.expected, d.actual⟩

namespace Store

/-- The success, as it is read, is the reported one. -/
structure GivesSuccess (s : Store) (archId : Int) (item : TestSuccess)
    (reported : String × Int32) : Prop where
  opcode : s.get .opcode item.opcodeId = .ok ⟨item.opcodeId, reported.1, archId⟩
  count : item.count = reported.2

/-- The failure, as it is read with its states, is the reported one. -/
structure GivesFailure (s : Store) (archId : Int) (item : TestFailure)
    (reported : ReportedFailure) : Prop where
  opcode : s.get .opcode item.opcodeId = .ok ⟨item.opcodeId, reported.opcode, archId⟩
  pretty : item.pretty = reported.pretty
  arguments : item.arguments = reported.arguments
  state : ∃ states, s.statesForFailure item.id = .ok states ∧
    states.map TestFailureState.diff = reported.state

/-- The queries give back a report that was recorded on an architecture, and the summary counts what
it reports. -/
structure GivesBack (s : Store) (now : Stamp) (r : Report) (m : Summary) (archId : Int) :
    Prop where
  arch : s.get .arch archId = .ok ⟨archId, r.arch⟩
  batch : ∃ hostId userId,
    s.get .batch m.batchId = .ok ⟨m.batchId, r.fuzzingHost, hostId, userId, now.time⟩ ∧
    s.get .host hostId = .ok ⟨hostId, r.testingHost, archId⟩ ∧
    s.get .user userId = .ok ⟨userId, r.user⟩
  successes : ∃ items, s.successesForBatch m.batchId = .ok items ∧
    List.Forall₂ (s.GivesSuccess archId) items (r.entries.filterMap Entry.success?)
  failures : ∃ items, s.failuresForBatch m.batchId = .ok items ∧
    List.Forall₂ (s.GivesFailure archId) items (r.entries.filterMap Entry.failure?)
  successCount : m.successes = (r.entries.filterMap Entry.success?).length
  failureCount : m.failures = (r.entries.filterMap Entry.failure?).length
  stateCount : m.states = (r.entries.flatMap Entry.state).length

/-! ## Queries -/

variable {s t : Store} {e : Entity} {batchId archId : Int}

/-- A list of rows is read if each of them is. -/
theorem readAll_eq_ok {rows : List (Row e)} {items : List (Item e)}
    (h : List.Forall₂ (fun r item => Row.read e r = .ok item) rows items) :
    readAll e rows = .ok items := by
  induction h with
  | nil => rfl
  | cons hread _ ih =>
    simp only [readAll, hread, ih]
    rfl

theorem Coherent.get_of_mem (h : s.Coherent) {r : Row e} (hr : r ∈ s.rows e) :
    s.get e (Row.id e r) = Row.read e r := by
  rw [get, h.find?_eq_some_iff.2 ⟨hr, rfl⟩]

theorem Coherent.get_opcode (h : s.Coherent) {id : Int} {name : String}
    (hhas : s.HasOpcode archId id name) : s.get .opcode id = .ok ⟨id, name, archId⟩ :=
  h.get_of_mem (e := .opcode) hhas

/-- If only the rows at the end of a table refer to a row, they are those that are found. -/
theorem referring_eq_of_append {parent : RowRef} {old rows : List (Row e)}
    (h : s.rows e = old ++ rows) (hold : ∀ r ∈ old, parent ∉ Row.references e r)
    (hrows : ∀ r ∈ rows, parent ∈ Row.references e r) : s.referring e parent = rows := by
  have hnone : old.filter (fun r => (Row.references e r).contains parent) = [] := by
    rw [List.filter_eq_nil_iff]
    intro r hr
    rw [List.contains_iff_mem]
    exact hold r hr
  have hall : rows.filter (fun r => (Row.references e r).contains parent) = rows := by
    rw [List.filter_eq_self]
    intro r hr
    rw [List.contains_iff_mem]
    exact hrows r hr
  rw [referring, h, List.filter_append, hnone, hall, List.nil_append]

theorem referring_states (s : Store) (id : Int) :
    s.referring .testFailureState (.testFailure, id) =
      s.states.rows.filter (·.failureId = id) := by
  refine List.filter_congr fun d _ => ?_
  rw [Bool.eq_iff_iff, List.contains_iff_mem, decide_eq_true_eq]
  simp [Row.references_eq, eq_comm]

/-- Rows that say what some differences do are read as states that hold them. -/
theorem states_of_cells : ∀ {rows : List (TestFailureState TextCell)} {diffs : List StateDiff},
    rows.map TestFailureState.cells = diffs.map StateDiff.cells →
      ∃ states : List TestFailureState,
        List.Forall₂ (fun r state => TestFailureState.read r = .ok state) rows states ∧
        states.map TestFailureState.diff = diffs
  | [], [], _ => ⟨[], .nil, rfl⟩
  | [], _ :: _, h => by cases h
  | _ :: _, [], h => by cases h
  | ⟨id, failureId, location, expected, actual⟩ :: rows, d :: diffs, h => by
    obtain ⟨hcells, hrest⟩ := List.cons.inj h
    obtain ⟨states, hread, hdiffs⟩ := states_of_cells hrest
    cases hcells
    refine ⟨⟨id, failureId, d.location, d.expected, d.actual⟩ :: states, ?_, ?_⟩
    · exact .cons (TestFailureState.read_eq_ok_iff.2 rfl) hread
    · rw [List.map_cons, hdiffs]
      rfl

/-! ## Rows of a recorded batch -/

/-- The stored successes are read one by one as they were reported. -/
theorem Coherent.givesSuccesses (h : s.Coherent) {rows : List StoredSuccess}
    {reported : List (String × Int32)}
    (hrows : List.Forall₂ (s.StoresSuccess batchId archId) rows reported) :
    ∃ items, List.Forall₂ (fun r item => StoredSuccess.read r = .ok item) rows items ∧
      List.Forall₂ (s.GivesSuccess archId) items reported := by
  induction hrows with
  | nil => exact ⟨[], .nil, .nil⟩
  | @cons row entry rows reported hrow _ ih =>
    obtain ⟨items, hread, hgives⟩ := ih
    have hitem : row.read = .ok ⟨row.id, row.batchId, row.opcodeId, entry.2⟩ := by
      rw [StoredSuccess.read_eq_ok_iff, TestSuccess.stored, ← hrow.count]
    exact ⟨_ :: items, .cons hitem hread, .cons ⟨h.get_opcode hrow.opcode, rfl⟩ hgives⟩

/-- The stored failures are read one by one as they were reported, each with its states. -/
theorem Coherent.givesFailures (h : s.Coherent) {rows : List (TestFailure TextCell)}
    {reported : List ReportedFailure}
    (hrows : List.Forall₂ (s.StoresFailure batchId archId) rows reported) :
    ∃ items, List.Forall₂ (fun r item => TestFailure.read r = .ok item) rows items ∧
      List.Forall₂ (s.GivesFailure archId) items reported := by
  induction hrows with
  | nil => exact ⟨[], .nil, .nil⟩
  | @cons row entry rows reported hrow _ ih =>
    obtain ⟨items, hread, hgives⟩ := ih
    have hitem : row.read =
        .ok ⟨row.id, row.batchId, row.opcodeId, entry.pretty, entry.arguments⟩ := by
      rw [TestFailure.read_eq_ok_iff, TestFailure.stored, ← hrow.pretty, ← hrow.arguments]
    obtain ⟨states, hstates, hdiffs⟩ := states_of_cells hrow.state
    have hfound : s.statesForFailure row.id = .ok states := by
      rw [statesForFailure, referring_states]
      exact readAll_eq_ok hstates
    exact ⟨_ :: items, .cons hitem hread,
      .cons ⟨h.get_opcode hrow.opcode, rfl, rfl, states, hfound, hdiffs⟩ hgives⟩

theorem Recorded.mem {entries : List Entry} (h : Recorded batchId archId entries s t)
    (he : e ∉ [Entity.opcode, .testSuccess, .testFailure, .testFailureState]) {r : Row e}
    (hr : r ∈ s.rows e) : r ∈ t.rows e := by
  simp only [Store.rows, h.frame e he]
  exact hr

variable {u : Store} {entries : List Entry} {b : StoredBatch}

/-- What is found for a new row is what has been added since. -/
theorem Appended.referring_eq {r : Row e} (happ : Appended e s t r) (h : s.Coherent) {f : Entity}
    (hf : f ≠ e) {rows : List (Row f)} (hrows : u.rows f = t.rows f ++ rows)
    (hrefs : ∀ q ∈ rows, (e, Row.id e r) ∈ Row.references f q) :
    u.referring f (e, Row.id e r) = rows :=
  referring_eq_of_append hrows (fun _ hq => happ.not_mem_references h hf hq) hrefs

/-- The successes that are found for a new batch are those of its entries. -/
theorem Recorded.successesForBatch (hrec : Recorded b.id archId entries t u) (h : s.Coherent)
    (happ : Appended .batch s t b) :
    ∃ items, u.successesForBatch b.id = .ok items ∧
      List.Forall₂ (u.GivesSuccess archId) items (entries.filterMap Entry.success?) := by
  obtain ⟨rows, hrows, hstored⟩ := hrec.successes
  obtain ⟨items, hread, hgives⟩ := hrec.coherent.givesSuccesses hstored
  have hbatch := batchId_of_storesSuccesses hstored
  have hfound : u.referring .testSuccess (.batch, b.id) = rows := by
    refine happ.referring_eq h (by decide) hrows fun q hq => ?_
    show (.batch, b.id) ∈ Row.references .testSuccess q
    rw [← hbatch q hq]
    exact List.mem_cons_self
  refine ⟨items, ?_, hgives⟩
  rw [Store.successesForBatch, hfound]
  exact readAll_eq_ok hread

/-- The failures that are found for a new batch are those of its entries. -/
theorem Recorded.failuresForBatch (hrec : Recorded b.id archId entries t u) (h : s.Coherent)
    (happ : Appended .batch s t b) :
    ∃ items, u.failuresForBatch b.id = .ok items ∧
      List.Forall₂ (u.GivesFailure archId) items (entries.filterMap Entry.failure?) := by
  obtain ⟨rows, hrows, hstored⟩ := hrec.failures
  obtain ⟨items, hread, hgives⟩ := hrec.coherent.givesFailures hstored
  have hbatch := batchId_of_storesFailures hstored
  have hfound : u.referring .testFailure (.batch, b.id) = rows := by
    refine happ.referring_eq h (by decide) hrows fun q hq => ?_
    show (.batch, b.id) ∈ Row.references .testFailure q
    rw [← hbatch q hq]
    exact List.mem_cons_self
  refine ⟨items, ?_, hgives⟩
  rw [Store.failuresForBatch, hfound]
  exact readAll_eq_ok hread

end Store

/-! ## The whole report -/

/-- **A store in which a recording succeeded gives the report back.** -/
theorem Action.recordReport_givesBack {s t : Store} {now : Stamp} {r : Report} {m : Summary}
    (h : s.Coherent) (hok : recordReport now r s = .ok m t) :
    ∃ archId, t.GivesBack now r m archId := by
  obtain ⟨user, arch, host, s₁, s₂, s₃, s₄, ⟨huser, huserMem, husername⟩,
    ⟨harch, harchMem, harchName⟩, ⟨hhost, hhostMem, hhostname, hhostArch⟩, happ, hrec, htally⟩ :=
    recordReport_ok h hok
  have hcoherent := hrec.coherent
  refine ⟨arch.id, ?_, ⟨host.id, user.id, ?_, ?_, ?_⟩, ?_, ?_, ?_, ?_, ?_⟩
  · rw [← harchName]
    exact hcoherent.get_of_mem (e := .arch)
      (hrec.mem (by decide) (happ.mem (hhost.mem (f := .arch) harchMem)))
  · have hget := hcoherent.get_of_mem (hrec.mem (by decide) happ.mem_self)
    exact hget.trans (StoredBatch.read_stamped m.batchId host.id user.id r.fuzzingHost now)
  · rw [← hhostname, ← hhostArch]
    exact hcoherent.get_of_mem (e := .host) (hrec.mem (by decide) (happ.mem (f := .host) hhostMem))
  · rw [← husername]
    exact hcoherent.get_of_mem (e := .user)
      (hrec.mem (by decide) (happ.mem (hhost.mem (harch.mem (f := .user) huserMem))))
  · exact hrec.successesForBatch hhost.coherent happ
  · exact hrec.failuresForBatch hhost.coherent happ
  · exact (congrArg Tally.successes htally).trans (Nat.zero_add _)
  · exact (congrArg Tally.failures htally).trans (Nat.zero_add _)
  · exact (congrArg Tally.states htally).trans (Nat.zero_add _)

/-- **A recorded report can be read back in full.**  If recording succeeds after some run, the
queries on the tables give the report back as it was submitted, and the summary counts it. -/
theorem Session.record_reads_back (run : List Event) (now : Stamp) (r : Report) {m : Summary}
    {s' : Session} (hok : record now r (fresh.steps run) = .ok m s') :
    ∃ store archId, s'.image.tables = some store ∧ store.GivesBack now r m archId := by
  rcases record_cases now r (fresh.steps run) with ⟨f, hf⟩ | ⟨-, m', store, store', htables, ha, h⟩
  · rw [hf] at hok; cases hok
  · obtain ⟨-, store₀, htables₀, hcoherent⟩ := (coherent_steps run).image
    rw [htables] at htables₀
    cases htables₀
    rw [h] at hok
    cases hok
    obtain ⟨archId, hgives⟩ := Action.recordReport_givesBack hcoherent ha
    exact ⟨store', archId, rfl, hgives⟩

/-- A report that comes back to an opcode, with a failure in two places. -/
def Session.mixed : Report :=
  ⟨"fuzzer", "tester", "user", "arch",
   [.success "add" 3, .failure "add" "add x1" "x1=7" [⟨"x1", "1", "2"⟩, ⟨"x2", "0", "4"⟩]]⟩

/-- It is recorded next to the rows of an earlier report. -/
theorem Session.record_mixed :
    ∃ m s' store archId, record .epoch mixed (fresh.steps recordedRun) = .ok m s' ∧
      s'.image.tables = some store ∧ store.GivesBack .epoch mixed m archId := by
  have hsuccess : (match record .epoch mixed (fresh.steps recordedRun) with
      | .ok .. => true
      | .error .. => false) = true := by decide +kernel
  cases hok : record .epoch mixed (fresh.steps recordedRun) with
  | ok m s' =>
    obtain ⟨store, archId, hgives⟩ := record_reads_back recordedRun .epoch mixed hok
    exact ⟨m, s', store, archId, rfl, hgives⟩
  | error f s' =>
    rw [hok] at hsuccess
    cases hsuccess

end FuzzLedger
