import FuzzLedger.Proofs.Contract

/-!
# The contract of a recording

From the contracts of the single statements to that of a whole report:

* `Store.missingOpcodes` — the names, in the order of their first occurrence, for which a row has to
  be made.  Resolving one name after the other makes exactly these rows (`missingOpcodes_cons`).
* `Entry.offences`, `Store.offences` — all that is wrong with an entry and with a report, in the
  order in which recording comes to it.
* `Store.demand` — how many identifiers recording a report takes of each kind.
* `Store.Ingested` — what a recorded report has added to the tables, table by table.
* `meets_recordReport` — recording a report meets all this.
-/

set_option autoImplicit false

namespace FuzzLedger

/-! ## Opcodes that are missing -/

namespace Store

variable {s t : Store} {archId : Int} {name : String}

/-- The names without an opcode on an architecture, each once, in the order in which they come up
first. -/
def missingOpcodes (s : Store) (archId : Int) (names : List String) : List String :=
  (names.filter fun name => !s.knowsOpcode archId name).eraseDups

theorem knowsOpcode_congr (h : t.opcodes.rows = s.opcodes.rows) (archId : Int) (name : String) :
    t.knowsOpcode archId name = s.knowsOpcode archId name := by
  rw [knowsOpcode, knowsOpcode, h]

theorem missingOpcodes_congr (h : t.opcodes.rows = s.opcodes.rows) (archId : Int)
    (names : List String) : t.missingOpcodes archId names = s.missingOpcodes archId names := by
  simp only [missingOpcodes, knowsOpcode_congr h]

/-- The names that are missing besides a given one. -/
def missingBesides (s : Store) (archId : Int) (name : String) (names : List String) :
    List String :=
  (names.filter fun n => !(s.knowsOpcode archId n || n == name)).eraseDups

/-- **A name is missing if it is not known, and then it is missing first.** -/
theorem missingOpcodes_cons (s : Store) (archId : Int) (name : String) (names : List String) :
    s.missingOpcodes archId (name :: names) =
      (if s.knowsOpcode archId name then [] else [name]) ++ s.missingBesides archId name names := by
  by_cases hknows : s.knowsOpcode archId name = true
  · have hsame (n : String) : (s.knowsOpcode archId n || n == name) = s.knowsOpcode archId n := by
      by_cases hn : n = name
      · rw [hn, hknows, Bool.true_or]
      · rw [beq_false_of_ne hn, Bool.or_false]
    rw [if_pos hknows, missingOpcodes, List.filter_cons_of_neg (by simp [hknows]), missingBesides]
    simp only [hsame, List.nil_append]
  · rw [if_neg hknows, missingOpcodes, List.filter_cons_of_pos (by simp [hknows]),
      List.eraseDups_cons, List.filter_filter, missingBesides]
    simp only [Bool.not_or, Bool.and_comm, List.singleton_append]

section Ensured

variable {opcode : Opcode}
  (h : Table.Ensured (e := .opcode) (fun o => o.archId = archId ∧ o.name = name) s.opcodes
    t.opcodes opcode.stored)

include h

theorem rows_of_ensured : t.opcodes.rows =
    s.opcodes.rows ++ if s.knowsOpcode archId name then [] else [opcode.stored] := by
  cases h with
  | found hmem hkey hrows =>
    rw [if_pos (knowsOpcode_iff.2 ⟨opcode.stored, hmem, hkey⟩), List.append_nil, hrows]
  | added hnone hkey hrows hid =>
    rw [if_neg, hrows]
    intro hknows
    obtain ⟨o, ho, hkey⟩ := knowsOpcode_iff.1 hknows
    exact hnone o ho hkey

/-- Once its opcode was asked for, a name is known. -/
theorem missingOpcodes_of_ensured (names : List String) :
    t.missingOpcodes archId names = s.missingBesides archId name names := by
  have hknows (n : String) : t.knowsOpcode archId n = (s.knowsOpcode archId n || n == name) := by
    rw [Bool.eq_iff_iff, Bool.or_eq_true, knowsOpcode_iff, knowsOpcode_iff, beq_iff_eq]
    constructor
    · rintro ⟨o, ho, harch, hname⟩
      cases h with
      | found hmem hkey hrows => exact .inl ⟨o, by rwa [hrows] at ho, harch, hname⟩
      | added hnone hkey hrows hid =>
        rw [hrows, List.mem_append, List.mem_singleton] at ho
        rcases ho with ho | rfl
        · exact .inl ⟨o, ho, harch, hname⟩
        · exact .inr (TextCell.text.inj (hname.symm.trans hkey.2))
    · rintro (⟨o, ho, hkey⟩ | rfl)
      · exact ⟨o, h.rows_prefix.subset ho, hkey⟩
      · exact ⟨opcode.stored, h.mem, h.has_key⟩
  simp only [missingOpcodes, missingBesides, hknows]

end Ensured

end Store

/-! ## What is wrong with an entry -/

/-- The offences of an entry besides its opcode. -/
def Entry.outcomeOffences (index : Nat) : Entry → List Failure
  | .success .. => []
  | .failure _ pretty _ state =>
    (lengthOffences "pretty" pretty Limit.failurePretty).map (.within s!"entry {index}") ++
      state.flatMap fun d => d.offences.map (.within s!"entry {index} state {d.location}")

/-- The offences of the entry with the given index: first its opcode, then its outcome. -/
def Entry.offences (index : Nat) (entry : Entry) : List Failure :=
  (lengthOffences "name" entry.opcode Limit.opcodeName).map (.within s!"entry {index}") ++
    entry.outcomeOffences index

/-- The offences of entries that are counted from an index on. -/
def entriesOffences (index : Nat) (entries : List Entry) : List Failure :=
  (entries.zipIdx index).flatMap fun p => p.1.offences p.2

theorem entriesOffences_cons (index : Nat) (entry : Entry) (entries : List Entry) :
    entriesOffences index (entry :: entries) =
      entry.offences index ++ entriesOffences (index + 1) entries := by
  rw [entriesOffences, List.zipIdx_cons, List.flatMap_cons, entriesOffences]

/-! ## How many rows entries need -/

/-- The identifiers that the outcomes of entries take. -/
def outcomeDemand (entries : List Entry) : Entity → Nat
  | .testSuccess => (entries.filterMap Entry.success?).length
  | .testFailure => (entries.filterMap Entry.failure?).length
  | .testFailureState => (entries.flatMap Entry.state).length
  | _ => 0

theorem outcomeDemand_cons (entry : Entry) (entries : List Entry) :
    outcomeDemand (entry :: entries) = outcomeDemand [entry] + outcomeDemand entries := by
  funext e
  rw [← List.singleton_append, Pi.add_apply]
  cases e <;> simp only [outcomeDemand, List.filterMap_append, List.flatMap_append,
    List.length_append, Nat.add_zero]

theorem outcomeDemand_success (opcode : String) (count : Int32) :
    outcomeDemand [.success opcode count] = Pi.single .testSuccess 1 := by
  funext e
  cases e <;> rfl

theorem outcomeDemand_failure (opcode pretty arguments : String) (state : List StateDiff) :
    outcomeDemand [.failure opcode pretty arguments state] =
      Pi.single .testFailure 1 + Pi.single .testFailureState state.length := by
  funext e
  cases e <;> simp [outcomeDemand, Entry.success?, Entry.failure?, Entry.state]

/-- The identifiers that entries take on an architecture. -/
def Store.entriesDemand (s : Store) (archId : Int) (entries : List Entry) : Entity → Nat :=
  Pi.single .opcode (s.missingOpcodes archId (entries.map Entry.opcode)).length +
    outcomeDemand entries

/-- The identifiers that an entry takes for its opcode and its outcome, and what is left for the
entries after it. -/
theorem Store.entriesDemand_cons (s : Store) (archId : Int) (entry : Entry)
    (entries : List Entry) :
    s.entriesDemand archId (entry :: entries) =
      Pi.single .opcode (if s.knowsOpcode archId entry.opcode then 0 else 1) +
        (outcomeDemand [entry] +
          (Pi.single .opcode
            (s.missingBesides archId entry.opcode (entries.map Entry.opcode)).length +
            outcomeDemand entries)) := by
  have hlength : (s.missingOpcodes archId ((entry :: entries).map Entry.opcode)).length =
      (if s.knowsOpcode archId entry.opcode then 0 else 1) +
        (s.missingBesides archId entry.opcode (entries.map Entry.opcode)).length := by
    rw [List.map_cons, missingOpcodes_cons, List.length_append]
    split <;> rfl
  rw [entriesDemand, hlength, outcomeDemand_cons, Pi.single_add]
  abel

/-! ## Entries -/

namespace Store

/-- What entries have added besides their successes and failures: the missing opcodes of the
architecture in order, and all differences in order. -/
structure Collected (archId : Int) (entries : List Entry) (s t : Store) : Prop where
  opcodes : ∃ rows, t.opcodes.rows = s.opcodes.rows ++ rows ∧
    rows.map Opcode.name =
      (s.missingOpcodes archId (entries.map Entry.opcode)).map TextCell.text ∧
    ∀ o ∈ rows, o.archId = archId
  states : ∃ rows, t.states.rows = s.states.rows ++ rows ∧
    rows.map TestFailureState.cells = (entries.flatMap Entry.state).map StateDiff.cells

variable {s t u : Store} {archId : Int} {entry : Entry} {entries : List Entry}

theorem Collected.nil (s : Store) : Collected archId [] s s :=
  ⟨⟨[], by simp, rfl, by simp⟩, [], by simp, rfl⟩

/-- An entry first resolves its opcode and then stores its differences. -/
theorem Collected.cons {v : Store} {opcode : Opcode}
    (hopcode : Table.Ensured (e := .opcode) (fun o => o.archId = archId ∧ o.name = entry.opcode)
      s.opcodes t.opcodes opcode.stored)
    (hsame : t.states.rows = s.states.rows) (hopcodes : u.opcodes.rows = t.opcodes.rows)
    (hstates : ∃ rows, u.states.rows = t.states.rows ++ rows ∧
      rows.map TestFailureState.cells = entry.state.map StateDiff.cells)
    (h : Collected archId entries u v) : Collected archId (entry :: entries) s v := by
  refine ⟨?_, ?_⟩
  · obtain ⟨rows, hrows, hnames, harch⟩ := h.opcodes
    rw [missingOpcodes_congr hopcodes, missingOpcodes_of_ensured hopcode] at hnames
    refine ⟨(if s.knowsOpcode archId entry.opcode then [] else [opcode.stored]) ++ rows, ?_, ?_, ?_⟩
    · rw [hrows, hopcodes, rows_of_ensured hopcode, List.append_assoc]
    · rw [List.map_append, hnames, List.map_cons, missingOpcodes_cons, List.map_append]
      split
      · rfl
      · rw [List.map_singleton, hopcode.has_key.2, List.map_singleton]
    · intro o ho
      rcases List.mem_append.1 ho with ho | ho
      · split at ho
        · cases ho
        · rw [List.mem_singleton.1 ho]
          exact hopcode.has_key.1
      · exact harch o ho
  · obtain ⟨rows, hrows, hdiffs⟩ := hstates
    obtain ⟨rows', hrows', hdiffs'⟩ := h.states
    refine ⟨rows ++ rows', ?_, ?_⟩
    · rw [hrows', hrows, hsame, List.append_assoc]
    · rw [List.map_append, hdiffs, hdiffs', List.flatMap_cons, List.map_append]

theorem GrowsIn.has {e : Entity} (h : GrowsIn e s t) {ref : RowRef} (href : s.has ref = true) :
    t.has ref = true := by
  obtain ⟨r, hr, hid⟩ := has_iff.1 href
  exact has_iff.2 ⟨r, h.mem hr, hid⟩

theorem Recorded.has {batchId : Int} (h : Recorded batchId archId entries s t) {e : Entity}
    {id : Int} (he : e ∉ [Entity.opcode, .testSuccess, .testFailure, .testFailureState])
    (href : s.has (e, id) = true) : t.has (e, id) = true := by
  rw [Store.has, h.frame e he]
  exact href

end Store

namespace Action

variable {s : Store} {batchId archId : Int}

/-- The identifier of an opcode, remembered or not, is that of a row with its name. -/
theorem meets_resolveOpcode (h : s.Sound) {known : KnownOpcodes} (hknown : s.Remembers archId known)
    (name : String) (harch : s.has (.arch, archId) = true) :
    Meets s (lengthOffences "name" name Limit.opcodeName)
      (Pi.single .opcode (if s.knowsOpcode archId name then 0 else 1))
      (fun resolved t => ∃ opcode : Opcode, Table.Ensured (e := .opcode)
        (fun o => o.archId = archId ∧ o.name = name) s.opcodes t.opcodes opcode.stored ∧
        opcode.id = resolved.1)
      (recorder.resolveOpcode archId known name) := by
  unfold Recorder.resolveOpcode
  cases hlookup : known.lookup name with
  | some id =>
    have hmem := hknown name id hlookup
    have hknows := Store.knowsOpcode_iff.2 ⟨_, hmem, rfl, rfl⟩
    rw [if_pos hknows, lengthOffences_eq_nil_iff.2 (h.knownOpcode_fits hknows)]
    exact meets_of_ok rfl (s.took_zero .opcode)
      ⟨⟨id, name, archId⟩, .found hmem ⟨rfl, rfl⟩ rfl, rfl⟩
  | none =>
    refine (meets_ensureOpcode h name harch).map ?_
    rintro opcode t ⟨-, hensured⟩
    exact ⟨opcode, hensured, rfl⟩

theorem meets_recordDiffs (index : Nat) (failureId : Int) :
    ∀ (diffs : List StateDiff) (tally : Tally) {s : Store}, s.Coherent →
      s.has (.testFailure, failureId) = true →
      Meets s (diffs.flatMap fun d => d.offences.map (.within s!"entry {index} state {d.location}"))
        (Pi.single .testFailureState diffs.length)
        (fun _ t => Store.GrowsIn .testFailureState s t ∧
          ∃ rows, t.states.rows = s.states.rows ++ rows ∧
            rows.map TestFailureState.cells = diffs.map StateDiff.cells)
        (recorder.recordDiffs index failureId tally diffs)
  | [], tally, s, h, _ =>
    meets_of_ok rfl (s.took_zero _) ⟨.refl h, [], (List.append_nil _).symm, rfl⟩
  | d :: diffs, tally, s, h, hfailure => by
    have hlength : (Pi.single .testFailureState (d :: diffs).length : Entity → Nat) =
        Pi.single .testFailureState 1 + Pi.single .testFailureState diffs.length := by
      rw [← Pi.single_add, List.length_cons, Nat.add_comm]
    rw [List.flatMap_cons, hlength]
    refine ((meets_addTestFailureState h d hfailure).within _).bind ?_
    rintro row t ⟨happ, hrow⟩
    have hrest := meets_recordDiffs index failureId diffs
      { tally with states := tally.states + 1 } happ.coherent (happ.has hfailure)
    refine hrest.mono ?_
    rintro tally' u ⟨hgrows, rows, hrows, hdiffs⟩
    have hstates : t.states.rows = s.states.rows ++ [row.stored] := happ.rows_eq
    refine ⟨happ.toGrowsIn.trans hgrows, row.stored :: rows, ?_, ?_⟩
    · rw [hrows, hstates, List.append_assoc, List.singleton_append]
    · rw [List.map_cons, List.map_cons, hdiffs, hrow]
      rfl

/-- The outcome of an entry touches no opcode, and stores the differences of the entry. -/
theorem meets_recordOutcome (h : s.Coherent) (index : Nat) {opcodeId : Int} (tally : Tally)
    (entry : Entry) (hbatch : s.has (.batch, batchId) = true)
    (hopcode : s.has (.opcode, opcodeId) = true) :
    Meets s (entry.outcomeOffences index) (outcomeDemand [entry])
      (fun _ t => t.opcodes.rows = s.opcodes.rows ∧
        ∃ rows, t.states.rows = s.states.rows ++ rows ∧
          rows.map TestFailureState.cells = entry.state.map StateDiff.cells)
      (recorder.recordOutcome index batchId opcodeId tally entry) := by
  cases entry with
  | success name count =>
    rw [outcomeDemand_success]
    refine (meets_addTestSuccess h count hbatch hopcode).map ?_
    intro x t happ
    have hstates : t.states.rows = s.states.rows :=
      happ.rows_of_ne (f := .testFailureState) (by decide)
    exact ⟨happ.rows_of_ne (f := .opcode) (by decide), [], by rw [hstates, List.append_nil], rfl⟩
  | failure name pretty arguments state =>
    rw [outcomeDemand_failure]
    refine ((meets_addTestFailure h (f := ⟨batchId, opcodeId, pretty, arguments⟩) hbatch
      hopcode).within _).bind ?_
    rintro row t ⟨happ, -⟩
    have hrow : t.has (.testFailure, row.id) = true := Store.has_of_mem happ.mem_self
    refine (meets_recordDiffs index row.id state tally happ.coherent hrow).map ?_
    rintro between u ⟨hgrows, rows, hrows, hdiffs⟩
    have hstates : t.states.rows = s.states.rows :=
      happ.rows_of_ne (f := .testFailureState) (by decide)
    have hopcodes : u.opcodes.rows = s.opcodes.rows :=
      (hgrows.rows_of_ne (f := .opcode) (by decide)).trans
        (happ.rows_of_ne (f := .opcode) (by decide))
    exact ⟨hopcodes, rows, by rw [hrows, hstates], hdiffs⟩

/-- **The entries of a report.**  The induction carries that the batch and the architecture exist
and that what is remembered of opcodes is true. -/
theorem meets_recordEntries (batchId archId : Int) :
    ∀ (entries : List Entry) (index : Nat) (known : KnownOpcodes) (tally : Tally) {s : Store},
      s.Sound → s.Remembers archId known → s.has (.arch, archId) = true →
      s.has (.batch, batchId) = true →
      Meets s (entriesOffences index entries) (s.entriesDemand archId entries)
        (fun _ t => t.Sound ∧ s.Collected archId entries t)
        (recorder.recordEntries batchId archId index known tally entries)
  | [], index, known, tally, s, h, _, _, _ => by
    have hnone : s.entriesDemand archId [] = 0 := by funext e; cases e <;> rfl
    rw [hnone]
    exact .pure ⟨h, .nil s⟩
  | entry :: entries, index, known, tally, s, h, hknown, harch, hbatch => by
    have hresolve := (meets_resolveOpcode h hknown entry.opcode harch).and fun resolved t hok =>
      resolveOpcode_ok h.coherent hknown hok
    have hresolve := (hresolve.sound (grows_resolveOpcode _ _ _) h).within s!"entry {index}"
    rw [entriesOffences_cons, Entry.offences, List.append_assoc, Store.entriesDemand_cons]
    refine hresolve.bind ?_
    rintro ⟨opcodeId, known'⟩ t ⟨ht, ⟨hgrows, hhas, hknown'⟩, opcode, hensured, hid⟩
    have hopcode : t.has (.opcode, opcodeId) = true := Store.has_of_mem (e := .opcode) hhas
    have houtcome := (meets_recordOutcome ht.coherent index tally entry (hgrows.has hbatch)
      hopcode).and fun tally' u hok => recordEntry_ok hgrows hhas hok
    have houtcome := houtcome.sound (grows_recordOutcome _ _ _ _ _) ht
    refine houtcome.bind ?_
    rintro tally' u ⟨hu, ⟨hentry, hle, -⟩, hopcodes, hstates⟩
    have hrest := meets_recordEntries batchId archId entries (index + 1) known' tally' hu
      (fun name id hlookup => (hknown' name id hlookup).mono hle) (hentry.has (by decide) harch)
      (hentry.has (by decide) hbatch)
    rw [Store.entriesDemand, Store.missingOpcodes_congr hopcodes,
      Store.missingOpcodes_of_ensured hensured] at hrest
    refine hrest.mono ?_
    rintro final v ⟨hv, hcollected⟩
    exact ⟨hv, .cons hensured (hgrows.rows_of_ne (f := .testFailureState) (by decide)) hopcodes
      hstates hcollected⟩

end Action

/-! ## Reports -/

namespace Store

/-- The identifier of the architecture of a name, if need be the one that it will get. -/
def archIdFor (s : Store) (name : String) : Int :=
  match s.arches.findNamed? name with
  | some arch => arch.id
  | none => s.arches.last + 1

/-- **The offences of a report**, in the order in which recording comes to them: its user, its
architecture, its testing host, its fuzzing host, then its entries. -/
def offences (s : Store) (r : Report) : List Failure :=
  (lengthOffences "username" r.user Limit.username).map (.within "user") ++
  ((lengthOffences "name" r.arch Limit.archName).map (.within "arch") ++
  ((s.hostOffences r.testingHost (s.archIdFor r.arch)).map (.within "testing host") ++
  (lengthOffences "fuzzer_host" r.fuzzingHost Limit.fuzzerHost ++
  entriesOffences 0 r.entries)))

/-- **The identifiers that recording a report takes.**  The user and the architecture take one even
if they are known. -/
def demand (s : Store) (r : Report) : Entity → Nat
  | .user => 1
  | .arch => 1
  | .host => if s.knowsHost r.testingHost then 0 else 1
  | .batch => 1
  | .opcode => (s.missingOpcodes (s.archIdFor r.arch) (r.entries.map Entry.opcode)).length
  | .testSuccess => (r.entries.filterMap Entry.success?).length
  | .testFailure => (r.entries.filterMap Entry.failure?).length
  | .testFailureState => (r.entries.flatMap Entry.state).length

theorem demand_eq (s : Store) (r : Report) :
    s.demand r = Pi.single .user 1 + (Pi.single .arch 1 +
      (Pi.single .host (if s.knowsHost r.testingHost then 0 else 1) + (Pi.single .batch 1 +
        s.entriesDemand (s.archIdFor r.arch) r.entries))) := by
  funext e
  cases e <;> simp [demand, entriesDemand, outcomeDemand]

/-- What a recorded report has added to the tables: its user, architecture and host unless they were
known, one batch, and what its entries need. -/
structure Ingested (now : Stamp) (r : Report) (m : Summary) (user : User) (arch : Arch)
    (host : Host) (s t : Store) : Prop where
  sound : t.Sound
  users : Table.Ensured (e := .user) (·.username = r.user) s.users t.users user.stored
  arches : Table.Ensured (e := .arch) (·.name = r.arch) s.arches t.arches arch.stored
  hosts : Table.Ensured (e := .host) (·.hostname = r.testingHost) s.hosts t.hosts host.stored
  host_arch : host.archId = arch.id
  batchId : m.batchId = s.batches.last + 1
  batches : t.batches.rows =
    s.batches.rows ++ [⟨m.batchId, r.fuzzingHost, host.id, user.id, now.text⟩]
  collected : s.Collected arch.id r.entries t
  successes : ∃ rows, t.successes.rows = s.successes.rows ++ rows ∧
    List.Forall₂ (t.StoresSuccess m.batchId arch.id) rows (r.entries.filterMap Entry.success?)
  failures : ∃ rows, t.failures.rows = s.failures.rows ++ rows ∧
    List.Forall₂ (t.StoresFailure m.batchId arch.id) rows (r.entries.filterMap Entry.failure?)
  newStates : ∃ rows, t.states.rows = s.states.rows ++ rows ∧
    ∀ d ∈ rows, s.failures.last < d.failureId
  tally : (⟨m.successes, m.failures, m.states⟩ : Tally) = Tally.after {} r.entries

variable {s t : Store}

theorem Coherent.archIdFor_eq (h : s.Coherent) {name : String} {arch : Arch}
    (harch : Table.Ensured (e := .arch) (·.name = name) s.arches t.arches arch.stored) :
    s.archIdFor name = arch.id := by
  unfold archIdFor
  cases harch with
  | found hmem hname _ =>
    cases hfind : s.arches.findNamed? name with
    | some q =>
      obtain ⟨hq, hqname⟩ := Table.mem_of_findNamed? hfind
      exact congrArg Arch.id
        (h.names .arch q hq arch.stored hmem name hqname (congrArg some hname))
    | none =>
      have hnone := findNamed?_eq_none_iff (e := .arch).1 hfind arch.stored hmem
      exact absurd (congrArg some hname) hnone
  | added hnone _ _ hid =>
    have hfind : s.arches.findNamed? name = none :=
      findNamed?_eq_none_iff (e := .arch).2 fun q hq hname => hnone q hq (Option.some.inj hname)
    rw [hfind]
    exact hid.symm

theorem Collected.congr {archId : Int} {entries : List Entry} {s' : Store}
    (h : Collected archId entries s t) (hopcodes : s.opcodes = s'.opcodes)
    (hstates : s.states = s'.states) : Collected archId entries s' t := by
  have hmissing := missingOpcodes_congr (s := s') (t := s) (by rw [hopcodes]) archId
  refine ⟨?_, ?_⟩
  · rw [← hopcodes, ← hmissing]
    exact h.opcodes
  · rw [← hstates]
    exact h.states

/-- **The five stages of a recording.**  Each table is touched by one of them only, so what they do
one after the other is what happens to the tables as a whole. -/
theorem Ingested.of_stages {s₁ s₂ s₃ s₄ : Store} {now : Stamp} {r : Report} {batchId : Int}
    {user : User} {arch : Arch} {host : Host} {tally : Tally} (ht : t.Sound)
    (hgrows₁ : GrowsIn .user s s₁)
    (huser : Table.Ensured (e := .user) (·.username = r.user) s.users s₁.users user.stored)
    (hgrows₂ : GrowsIn .arch s₁ s₂)
    (harch : Table.Ensured (e := .arch) (·.name = r.arch) s₁.arches s₂.arches arch.stored)
    (hgrows₃ : GrowsIn .host s₂ s₃)
    (hhost : Table.Ensured (e := .host) (·.hostname = r.testingHost) s₂.hosts s₃.hosts host.stored)
    (hhostArch : host.archId = arch.id)
    (happ : Appended .batch s₃ s₄
      (⟨batchId, r.fuzzingHost, host.id, user.id, now.text⟩ : StoredBatch))
    (hrec : Recorded batchId arch.id r.entries s₄ t) (hcollected : Collected arch.id r.entries s₄ t)
    (htally : tally = Tally.after {} r.entries) :
    Ingested now r ⟨batchId, tally.successes, tally.failures, tally.states⟩ user arch host s t := by
  have husers : t.users = s₁.users :=
    (hrec.frame .user (by decide)).trans ((happ.frame .user (by decide)).trans
      ((hgrows₃.frame .user (by decide)).trans (hgrows₂.frame .user (by decide))))
  have harches : s₁.arches = s.arches := hgrows₁.frame .arch (by decide)
  have harches' : t.arches = s₂.arches :=
    (hrec.frame .arch (by decide)).trans ((happ.frame .arch (by decide)).trans
      (hgrows₃.frame .arch (by decide)))
  have hhosts : s₂.hosts = s.hosts :=
    (hgrows₂.frame .host (by decide)).trans (hgrows₁.frame .host (by decide))
  have hhosts' : t.hosts = s₃.hosts :=
    (hrec.frame .host (by decide)).trans (happ.frame .host (by decide))
  have hbatches : s₃.batches = s.batches :=
    (hgrows₃.frame .batch (by decide)).trans ((hgrows₂.frame .batch (by decide)).trans
      (hgrows₁.frame .batch (by decide)))
  have hbatches' : t.batches = s₄.batches := hrec.frame .batch (by decide)
  have hrows : s₄.batches.rows = s₃.batches.rows ++
      [⟨batchId, r.fuzzingHost, host.id, user.id, now.text⟩] := happ.rows_eq
  have hid : batchId = s₃.batches.last + 1 := happ.id_eq
  have hopcodes : s₄.opcodes = s.opcodes :=
    frame_of_stages (e := .opcode) hgrows₁ hgrows₂ hgrows₃ happ (by decide)
  have hsuccesses : s₄.successes = s.successes :=
    frame_of_stages (e := .testSuccess) hgrows₁ hgrows₂ hgrows₃ happ (by decide)
  have hfailures : s₄.failures = s.failures :=
    frame_of_stages (e := .testFailure) hgrows₁ hgrows₂ hgrows₃ happ (by decide)
  have hstates : s₄.states = s.states :=
    frame_of_stages (e := .testFailureState) hgrows₁ hgrows₂ hgrows₃ happ (by decide)
  refine ⟨ht, ?_, ?_, ?_, hhostArch, ?_, ?_, ?_, ?_, ?_, ?_, htally⟩
  · rw [husers]; exact huser
  · rw [harches', ← harches]; exact harch
  · rw [hhosts', ← hhosts]; exact hhost
  · rw [hid, hbatches]
  · rw [hbatches', hrows, hbatches]
  · exact hcollected.congr hopcodes hstates
  · rw [← hsuccesses]; exact hrec.successes
  · rw [← hfailures]; exact hrec.failures
  · rw [← hstates, ← hfailures]; exact hrec.states

end Store

/-- **Recording a report.**  What the later stages come to is said in advance, of the store before:
the hosts and opcodes they look at are still the same, and the architecture has the identifier that
it was to get. -/
theorem Action.meets_recordReport {s : Store} (h : s.Sound) (now : Stamp) (r : Report) :
    Meets s (s.offences r) (s.demand r)
      (fun m t => ∃ user arch host, s.Ingested now r m user arch host t)
      (recordReport now r) := by
  rw [Store.offences, Store.demand_eq]
  have hensureUser := (meets_ensureUser h.coherent r.user).sound (grows_ensureUser _).grows h
  refine (hensureUser.within _).bind ?_
  rintro user s₁ ⟨h₁, hgrows₁, huser⟩
  have hensureArch := (meets_ensureArch h₁.coherent r.arch).sound (grows_ensureArch _).grows h₁
  refine (hensureArch.within _).bind ?_
  rintro arch s₂ ⟨h₂, hgrows₂, harch⟩
  have harches : s₁.arches = s.arches := hgrows₁.frame .arch (by decide)
  have hhosts : s₂.hosts = s.hosts :=
    (hgrows₂.frame .host (by decide)).trans (hgrows₁.frame .host (by decide))
  have harchId : s.archIdFor r.arch = arch.id :=
    h.coherent.archIdFor_eq (t := s₂) (by rw [← harches]; exact harch)
  have hhasArch : s₂.has (.arch, arch.id) = true := Store.has_of_mem (e := .arch) harch.mem
  have hoffences : s.hostOffences r.testingHost (s.archIdFor r.arch) =
      s₂.hostOffences r.testingHost arch.id := by
    rw [Store.hostOffences, Store.hostOffences, hhosts, harchId]
  have hknows : s.knowsHost r.testingHost = s₂.knowsHost r.testingHost := by
    rw [Store.knowsHost, Store.knowsHost, hhosts]
  rw [hoffences, hknows]
  refine (((meets_ensureHost h₂.coherent r.testingHost hhasArch).sound (grows_ensureHost _ _).grows
    h₂).within _).bind ?_
  rintro host s₃ ⟨h₃, hgrows₃, hhost, hhostArch⟩
  have hhasHost : s₃.has (.host, host.id) = true := Store.has_of_mem (e := .host) hhost.mem
  have hhasUser : s₃.has (.user, user.id) = true :=
    hgrows₃.has (hgrows₂.has (Store.has_of_mem (e := .user) huser.mem))
  refine ((meets_createBatch h₃.coherent now (b := ⟨r.fuzzingHost, host.id, user.id⟩) hhasHost
    hhasUser).sound (grows_createBatch _ _).grows h₃).bind ?_
  rintro batch s₄ ⟨h₄, happ⟩
  have hhasBatch : s₄.has (.batch, batch.id) = true := Store.has_of_mem happ.mem_self
  have hopcodes : s₄.opcodes = s.opcodes :=
    Store.frame_of_stages (e := .opcode) hgrows₁ hgrows₂ hgrows₃ happ (by decide)
  have hdemand : s.entriesDemand (s.archIdFor r.arch) r.entries =
      s₄.entriesDemand arch.id r.entries := by
    rw [Store.entriesDemand, Store.entriesDemand, harchId,
      Store.missingOpcodes_congr (by rw [hopcodes])]
  rw [hdemand]
  have hnothing : s₄.Remembers arch.id [] := fun _ _ hlookup => by cases hlookup
  refine ((meets_recordEntries batch.id arch.id r.entries 0 [] {} h₄ hnothing
    (happ.has (hgrows₃.has hhasArch)) hhasBatch).and fun tally t hok =>
      recordEntries_ok h₄.coherent hnothing hok).map ?_
  rintro tally t ⟨⟨hrec, htally⟩, ht, hcollected⟩
  exact ⟨user, arch, host, .of_stages ht hgrows₁ huser hgrows₂ harch hgrows₃ hhost hhostArch happ
    hrec hcollected htally⟩

end FuzzLedger
