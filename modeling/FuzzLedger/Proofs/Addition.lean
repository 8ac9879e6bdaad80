import FuzzLedger.Proofs.Offence

/-!
# A recording adds the rows it must and touches nothing else

`Store.AddsExactly` says, table by table, what a report adds: rows at the end, none of which belongs
to another batch or is an opcode of another architecture.  It follows from the contract of a
recording (`Ingested.addsExactly`): new states refer to new failures, because their identifiers of
failures are beyond all that were given out before.
-/

set_option autoImplicit false

namespace FuzzLedger

namespace Store

/-- If a row of the kind has the key nothing is added, else one row with the key. -/
def AddsUnlessKnown (e : Entity) (key : Row e → Prop) (s t : Store) : Prop :=
  (∃ q ∈ s.rows e, key q) ∧ t.rows e = s.rows e ∨
    (¬ ∃ q ∈ s.rows e, key q) ∧ ∃ r, key r ∧ t.rows e = s.rows e ++ [r]

/-- What a report with a given summary adds to a store. -/
structure AddsExactly (r : Report) (m : Summary) (s t : Store) : Prop where
  /-- All rows stay as they are; new ones come after them. -/
  kept : ∀ e, s.rows e <+: t.rows e
  user : AddsUnlessKnown .user (·.username = r.user) s t
  arch : AddsUnlessKnown .arch (·.name = r.arch) s t
  host : AddsUnlessKnown .host (·.hostname = r.testingHost) s t
  batch : ∃ b, b.id = m.batchId ∧ t.batches.rows = s.batches.rows ++ [b]
  /-- The opcodes that were missing on the architecture of the report, by ascending identifier in
  the order in which the entries come to them. -/
  opcodes : ∃ a ∈ t.arches.rows, a.name = r.arch ∧ ∃ rows,
    t.opcodes.rows = s.opcodes.rows ++ rows ∧ (∀ o ∈ rows, o.archId = a.id) ∧
    rows.map Opcode.name =
      (s.missingOpcodes a.id (r.entries.map Entry.opcode)).map TextCell.text ∧
    rows.Pairwise fun o o' => o.id < o'.id
  successes : ∃ rows, t.successes.rows = s.successes.rows ++ rows ∧ rows.length = m.successes ∧
    ∀ x ∈ rows, x.batchId = m.batchId
  failures : ∃ rows, t.failures.rows = s.failures.rows ++ rows ∧ rows.length = m.failures ∧
    (∀ f ∈ rows, f.batchId = m.batchId) ∧
    ∃ states, t.states.rows = s.states.rows ++ states ∧ states.length = m.states ∧
      ∀ d ∈ states, ∃ f ∈ rows, d.failureId = f.id

variable {s t : Store} {now : Stamp} {r : Report} {m : Summary} {user : User} {arch : Arch}
  {host : Host}

theorem addsUnlessKnown_of_ensured {e : Entity} {key : Row e → Prop} {row : Row e}
    (h : Table.Ensured key (s.table e) (t.table e) row) : AddsUnlessKnown e key s t := by
  cases h with
  | found hmem hkey hrows => exact .inl ⟨⟨row, hmem, hkey⟩, hrows⟩
  | added hnone hkey hrows hid =>
    refine .inr ⟨?_, row, hkey, hrows⟩
    rintro ⟨q, hq, hqkey⟩
    exact hnone q hq hqkey

theorem Ingested.rows_prefix (h : Ingested now r m user arch host s t) :
    ∀ e, s.rows e <+: t.rows e
  | .user => h.users.rows_prefix
  | .arch => h.arches.rows_prefix
  | .host => h.hosts.rows_prefix
  | .batch => ⟨_, h.batches.symm⟩
  | .opcode =>
    have ⟨rows, hrows, _⟩ := h.collected.opcodes
    ⟨rows, hrows.symm⟩
  | .testSuccess =>
    have ⟨rows, hrows, _⟩ := h.successes
    ⟨rows, hrows.symm⟩
  | .testFailure =>
    have ⟨rows, hrows, _⟩ := h.failures
    ⟨rows, hrows.symm⟩
  | .testFailureState =>
    have ⟨rows, hrows, _⟩ := h.collected.states
    ⟨rows, hrows.symm⟩

/-- The states of a recording are as many as its summary says, and refer to its failures. -/
theorem Ingested.states (h : Ingested now r m user arch host s t) (hs : s.Coherent)
    {rows : List (TestFailure TextCell)} (hrows : t.failures.rows = s.failures.rows ++ rows) :
    ∃ states, t.states.rows = s.states.rows ++ states ∧ states.length = m.states ∧
      ∀ d ∈ states, ∃ f ∈ rows, d.failureId = f.id := by
  obtain ⟨states, hstates, hdiffs⟩ := h.collected.states
  obtain ⟨states', hstates', hbeyond⟩ := h.newStates
  have hsame : states' = states := List.append_cancel_left (hstates'.symm.trans hstates)
  subst hsame
  refine ⟨states', hstates, ?_, fun d hd => ?_⟩
  · have hcount : m.states = 0 + (r.entries.flatMap Entry.state).length :=
      congrArg Tally.states h.tally
    have hlength := congrArg List.length hdiffs
    rw [List.length_map, List.length_map] at hlength
    rw [hcount, Nat.zero_add, hlength]
  · have hmem : d ∈ t.states.rows := by rw [hstates]; exact List.mem_append_right _ hd
    have hparent := h.sound.coherent.parents .testFailureState d hmem _ (List.mem_singleton_self _)
    obtain ⟨f, hf, hid⟩ := has_iff.1 hparent
    have hid : f.id = d.failureId := hid
    have hf : f ∈ s.failures.rows ++ rows := by rw [← hrows]; exact hf
    rcases List.mem_append.1 hf with hold | hnew
    · -- an old failure has an identifier that was given out
      have hle : f.id ≤ s.failures.last := hs.id_le_last .testFailure f hold
      have hlt := hbeyond d hd
      omega
    · exact ⟨f, hnew, hid.symm⟩

/-- **What the contract of a recording says is what a report adds.** -/
theorem Ingested.addsExactly (h : Ingested now r m user arch host s t) (hs : s.Coherent) :
    AddsExactly r m s t where
  kept := h.rows_prefix
  user := addsUnlessKnown_of_ensured (e := .user) h.users
  arch := addsUnlessKnown_of_ensured (e := .arch) h.arches
  host := addsUnlessKnown_of_ensured (e := .host) h.hosts
  batch := ⟨_, rfl, h.batches⟩
  opcodes := by
    obtain ⟨rows, hrows, hnames, harch⟩ := h.collected.opcodes
    have hascending : (s.opcodes.rows ++ rows).Pairwise fun o o' => o.id < o'.id := by
      rw [← hrows]
      exact h.sound.coherent.ascending .opcode
    exact ⟨arch.stored, h.arches.mem, h.arches.has_key, rows, hrows, harch, hnames,
      (List.pairwise_append.1 hascending).2.1⟩
  successes := by
    obtain ⟨rows, hrows, hstored⟩ := h.successes
    have hcount : m.successes = 0 + (r.entries.filterMap Entry.success?).length :=
      congrArg Tally.successes h.tally
    refine ⟨rows, hrows, ?_, ?_⟩
    · rw [hstored.length_eq, hcount, Nat.zero_add]
    · exact batchId_of_storesSuccesses hstored
  failures := by
    obtain ⟨rows, hrows, hstored⟩ := h.failures
    have hcount : m.failures = 0 + (r.entries.filterMap Entry.failure?).length :=
      congrArg Tally.failures h.tally
    refine ⟨rows, hrows, ?_, ?_, h.states hs hrows⟩
    · rw [hstored.length_eq, hcount, Nat.zero_add]
    · exact batchId_of_storesFailures hstored

end Store

namespace Session

/-- What a successful recording has done to the tables after a run. -/
theorem ingested_of_record {run : List Event} (hrun : ∀ event ∈ run, event.isDirect = false)
    {now : Stamp} {r : Report} {m : Summary} {s' : Session}
    (hok : record now r (fresh.steps run) = .ok m s') :
    ∃ store store', (fresh.steps run).image.tables = some store ∧ store.Sound ∧
      s'.image.tables = some store' ∧
      ∃ user arch host, store.Ingested now r m user arch host store' := by
  rcases record_cases now r (fresh.steps run) with ⟨f, hf⟩ | ⟨-, m', store, store', htables, ha, h⟩
  · rw [hf] at hok; cases hok
  · rw [h] at hok
    cases hok
    have hsound := sound_steps hrun htables
    obtain ⟨-, -, hingested⟩ := (Action.meets_recordReport hsound now r).of_ok ha
    exact ⟨store, store', htables, hsound, rfl, hingested⟩

/-- **Recording adds exactly the rows it must and touches nothing else**, after every run of the
ledger's operations. -/
theorem record_adds_exactly {run : List Event} (hrun : ∀ event ∈ run, event.isDirect = false)
    {now : Stamp} {r : Report} {m : Summary} {s' : Session}
    (hok : record now r (fresh.steps run) = .ok m s') :
    ∃ store store', (fresh.steps run).image.tables = some store ∧ s'.image.tables = some store' ∧
      store.AddsExactly r m store' := by
  obtain ⟨store, store', htables, hsound, htables', user, arch, host, hingested⟩ :=
    ingested_of_record hrun hok
  exact ⟨store, store', htables, htables', hingested.addsExactly hsound.coherent⟩

/-- A report that comes to a new opcode twice and to a known one in between. -/
def interleaved : Report :=
  ⟨"fuzzer", "tester", "user", "arch",
   [.success "sub" 1, .success "add" 3, .failure "sub" "sub x1" "x1=7" [⟨"x1", "1", "2"⟩]]⟩

/-- The new opcode is stored once, next to the one of an earlier report. -/
theorem record_adds_interleaved :
    ∃ m s' store store', record .epoch interleaved (fresh.steps recordedRun) = .ok m s' ∧
      (fresh.steps recordedRun).image.tables = some store ∧ s'.image.tables = some store' ∧
      store.AddsExactly interleaved m store' ∧
      store'.opcodes.rows.map Opcode.name = [.text "add", .text "sub"] := by
  have heval : (match record .epoch interleaved (fresh.steps recordedRun) with
      | .ok _ s' => s'.image.tables.any fun store =>
          store.opcodes.rows.map Opcode.name = [.text "add", .text "sub"]
      | .error .. => false) = true := by decide +kernel
  cases hok : record .epoch interleaved (fresh.steps recordedRun) with
  | ok m s' =>
    obtain ⟨store, store', htables, htables', hadds⟩ := record_adds_exactly (by decide) hok
    refine ⟨m, s', store, store', rfl, htables, htables', hadds, ?_⟩
    rw [hok] at heval
    simpa [htables'] using heval
  | error f s' =>
    rw [hok] at heval
    cases heval

end Session

end FuzzLedger
