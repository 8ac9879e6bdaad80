import FuzzLedger.Proofs.Change
import FuzzLedger.Proofs.Coherence
import Mathlib

/-!
# What a successful recording stores

A row under the next identifier goes to the end of its table, so recording extends every table at
its end.  `Store.GrowsIn` says that a step extends one table and leaves the others alone; each
writing operation has one lemma that gives it together with the row that was answered.

`Recorded` describes what the entries of a report add to a store: one success row per success
entry, one failure row per failure entry, in the order of the entries, and under each failure the
rows of its own differences.  It holds of a single entry (`recordEntry_ok`) and goes through
sequencing (`Recorded.trans`), hence of all entries (`recordEntries_ok`).  `recordReport_ok` puts the
stages of a report together.
-/

set_option autoImplicit false

namespace FuzzLedger

/-! ## Tables that grow at the end -/

namespace Store

variable {s t u : Store} {e : Entity}

/-- A coherent store that differs from a given one by rows at the end of one table. -/
structure GrowsIn (e : Entity) (s t : Store) : Prop where
  coherent : t.Coherent
  rows : s.rows e <+: t.rows e
  frame : ∀ f, f ≠ e → t.table f = s.table f

theorem GrowsIn.refl (h : s.Coherent) : GrowsIn e s s := ⟨h, List.prefix_rfl, fun _ _ => rfl⟩

theorem GrowsIn.trans (h : GrowsIn e s t) (h' : GrowsIn e t u) : GrowsIn e s u :=
  ⟨h'.coherent, h.rows.trans h'.rows, fun f hf => by rw [h'.frame f hf, h.frame f hf]⟩

theorem GrowsIn.rows_of_ne (h : GrowsIn e s t) {f : Entity} (hf : f ≠ e) : t.rows f = s.rows f := by
  simp only [Store.rows, h.frame f hf]

/-- The store has one more row, which stands at the end under a new identifier. -/
structure Appended (e : Entity) (s t : Store) (r : Row e) : Prop extends GrowsIn e s t where
  rows_eq : t.rows e = s.rows e ++ [r]
  id_eq : Row.id e r = (s.table e).last + 1
  last_eq : (t.table e).last = (s.table e).last + 1

theorem Coherent.appended (h : s.Coherent) {r : Row e} (hnext : s.nextId? e = some (Row.id e r))
    (hok : s.violation? e r = none) : Appended e s (s.add e r) r := by
  have hid := (nextId?_eq_some_iff.1 hnext).2
  have hrows : (s.add e r).rows e = s.rows e ++ [r] := by
    rw [rows_add_same]
    refine Table.place_eq_append fun q hq => ?_
    have := h.id_le_last e q hq
    omega
  refine ⟨⟨h.add hok, ?_, fun f hf => table_add_ne r hf⟩, hrows, hid, ?_⟩
  · rw [hrows]; exact List.prefix_append _ _
  · rw [last_add, if_pos rfl]; omega

theorem GrowsIn.mem (h : GrowsIn e s t) {f : Entity} {r : Row f} (hr : r ∈ s.rows f) :
    r ∈ t.rows f := by
  by_cases hf : f = e
  · subst hf; exact h.rows.subset hr
  · rw [h.rows_of_ne hf]; exact hr

theorem Coherent.reference_le_last (h : s.Coherent) {f : Entity} {r : Row e} {id : Int}
    (hr : r ∈ s.rows e) (href : (f, id) ∈ Row.references e r) : id ≤ (s.table f).last := by
  obtain ⟨q, hq, hid⟩ := has_iff.1 (h.parents e r hr (f, id) href)
  have hle := h.id_le_last f q hq
  rw [hid] at hle
  exact hle

theorem Appended.mem_self {r : Row e} (happ : Appended e s t r) : r ∈ t.rows e := by
  rw [happ.rows_eq]
  exact List.mem_append_right _ (List.mem_singleton_self r)

/-- No row refers to one that was just added. -/
theorem Appended.not_mem_references {r : Row e} (happ : Appended e s t r) (h : s.Coherent)
    {f : Entity} (hf : f ≠ e) {q : Row f} (hq : q ∈ t.rows f) :
    (e, Row.id e r) ∉ Row.references f q := by
  intro href
  rw [happ.rows_of_ne hf] at hq
  have := h.reference_le_last hq href
  have := happ.id_eq
  omega

end Store

/-! ## Success of a sequence -/

theorem bind_eq_ok {ε σ α β : Type} {a : EStateM ε σ α} {f : α → EStateM ε σ β} {s t : σ} {y : β}
    (h : (a >>= f) s = .ok y t) : ∃ x s', a s = .ok x s' ∧ f x s' = .ok y t := by
  simp only [Bind.bind, EStateM.bind] at h
  cases ha : a s with
  | ok x s' => rw [ha] at h; exact ⟨x, s', rfl, h⟩
  | error fault s' => rw [ha] at h; cases h

namespace Action

variable {α β : Type} {s t : Store}

theorem within_eq_ok {a : Action α} {context : String} {x : α} (h : within context a s = .ok x t) :
    a s = .ok x t := by
  unfold within at h
  cases ha : a s with
  | ok y s' => rw [ha] at h; exact h
  | error fault s' => rw [ha] at h; cases h

theorem checkLength_bind_eq_ok {field value : String} {limit : Nat} {f : Unit → Action β} {y : β}
    (h : (checkLength field value limit >>= f) s = .ok y t) :
    value.length ≤ limit ∧ f () s = .ok y t := by
  by_cases hle : value.length ≤ limit
  · rw [checkLength, Limit.check_eq_ok_iff.2 hle] at h
    exact ⟨hle, h⟩
  · rw [checkLength, Limit.check_eq_error (by omega)] at h
    cases h

theorem insertNew_ok {e : Entity} {build : Int → Row e} {r : Row e}
    (hid : ∀ id, Row.id e (build id) = id) (h : s.Coherent) (hok : insertNew e build s = .ok r t) :
    Store.Appended e s t r ∧ r = build (Row.id e r) := by
  rw [insertNew_eq] at hok
  split at hok
  · cases hok
  · rename_i id hnext
    split at hok
    · cases hok
    · rename_i hv
      cases hok
      refine ⟨h.appended (by rw [hid]; exact hnext) hv, by rw [hid]⟩

/-! ## Rows by name -/

/-- Adding a row unless its name exists, and then looking the name up, gives what belongs to a row
of that name. -/
theorem ensureNamed_ok {e : Entity} {build : Int → Row e} {name : String} {give : Int → α} {x : α}
    (hid : ∀ id, Row.id e (build id) = id) (h : s.Coherent)
    (hok : (insertIfNewName e build >>= fun _ =>
      findNamed e name >>= fun id => pure (give id)) s = .ok x t) :
    Store.GrowsIn e s t ∧ ∃ r ∈ t.rows e, Row.uniqueName? e r = some (name : TextCell) ∧
      x = give (Row.id e r) := by
  obtain ⟨_, s', hinsert, hok⟩ := bind_eq_ok hok
  obtain ⟨id, s'', hfind, hret⟩ := bind_eq_ok hok
  cases hret
  have hgrows : Store.GrowsIn e s s' := by
    rw [insertIfNewName_eq] at hinsert
    split at hinsert
    · cases hinsert
    · rename_i id hnext
      split at hinsert
      · rename_i hv
        cases hinsert
        exact (h.appended (by rw [hid]; exact hnext) hv).toGrowsIn
      · cases hinsert
        refine ⟨h.spendId id, ?_, fun f hf => Store.table_setTable_ne _ _ hf⟩
        simp only [Store.rows_spendId, List.prefix_rfl]
      · cases hinsert
  unfold findNamed at hfind
  split at hfind
  · rename_i q hq
    cases hfind
    obtain ⟨hmem, hname⟩ := Table.mem_of_findNamed? hq
    exact ⟨hgrows, q, hmem, hname, rfl⟩
  · cases hfind

theorem ensureUser_ok {username : String} {user : User} (h : s.Coherent)
    (hok : ensureUser username s = .ok user t) :
    Store.GrowsIn .user s t ∧ user.stored ∈ t.users.rows ∧ user.username = username := by
  obtain ⟨-, hok⟩ := checkLength_bind_eq_ok hok
  obtain ⟨hgrows, ⟨id, cell⟩, hmem, hname, rfl⟩ := ensureNamed_ok (fun _ => rfl) h hok
  cases Option.some.inj hname
  exact ⟨hgrows, hmem, rfl⟩

theorem ensureArch_ok {name : String} {arch : Arch} (h : s.Coherent)
    (hok : ensureArch name s = .ok arch t) :
    Store.GrowsIn .arch s t ∧ arch.stored ∈ t.arches.rows ∧ arch.name = name := by
  obtain ⟨-, hok⟩ := checkLength_bind_eq_ok hok
  obtain ⟨hgrows, ⟨id, cell⟩, hmem, hname, rfl⟩ := ensureNamed_ok (fun _ => rfl) h hok
  cases Option.some.inj hname
  exact ⟨hgrows, hmem, rfl⟩

theorem ensureHost_ok {hostname : String} {archId : Int} {host : Host} (h : s.Coherent)
    (hok : ensureHost hostname archId s = .ok host t) :
    Store.GrowsIn .host s t ∧ host.stored ∈ t.hosts.rows ∧ host.hostname = hostname ∧
      host.archId = archId := by
  obtain ⟨_, _, hget, hok⟩ := bind_eq_ok hok
  cases hget
  rw [Store.findHost?_eq] at hok
  cases hq : s.hosts.findNamed? hostname with
  | some q =>
    rw [hq] at hok
    by_cases harch : q.archId = archId
    · simp only [Option.map_some, if_pos harch] at hok
      cases hok
      obtain ⟨id, cell, archId'⟩ := q
      obtain ⟨hmem, hname⟩ := Table.mem_of_findNamed? hq
      cases Option.some.inj hname
      exact ⟨.refl h, hmem, rfl, harch⟩
    · simp only [Option.map_some, if_neg harch] at hok
      cases hok
  | none =>
    rw [hq] at hok
    obtain ⟨-, hok⟩ := checkLength_bind_eq_ok hok
    obtain ⟨row, _, hinsert, hret⟩ := bind_eq_ok hok
    cases hret
    obtain ⟨happ, hbuild⟩ := insertNew_ok (fun _ => rfl) h hinsert
    refine ⟨happ.toGrowsIn, ?_, rfl, rfl⟩
    rw [hbuild] at happ
    exact happ.mem_self

theorem ensureOpcode_ok {name : String} {archId : Int} {opcode : Opcode} (h : s.Coherent)
    (hok : ensureOpcode name archId s = .ok opcode t) :
    Store.GrowsIn .opcode s t ∧ opcode.stored ∈ t.opcodes.rows ∧ opcode.name = name ∧
      opcode.archId = archId := by
  obtain ⟨_, _, hget, hok⟩ := bind_eq_ok hok
  cases hget
  cases hq : s.opcodes.rows.find? fun o => o.archId == archId && o.name == .text name with
  | some q =>
    rw [hq] at hok
    cases hok
    obtain ⟨id, cell, archId'⟩ := q
    have hkey : archId' = archId ∧ cell = .text name := by simpa using List.find?_some hq
    obtain ⟨rfl, rfl⟩ := hkey
    exact ⟨.refl h, List.mem_of_find?_eq_some hq, rfl, rfl⟩
  | none =>
    rw [hq] at hok
    obtain ⟨-, hok⟩ := checkLength_bind_eq_ok hok
    obtain ⟨row, _, hinsert, hret⟩ := bind_eq_ok hok
    cases hret
    obtain ⟨happ, hbuild⟩ := insertNew_ok (fun _ => rfl) h hinsert
    refine ⟨happ.toGrowsIn, ?_, rfl, rfl⟩
    rw [hbuild] at happ
    exact happ.mem_self

/-! ## New rows of a report -/

theorem createBatch_ok {now : Stamp} {b : NewBatch} {batch : Batch} (h : s.Coherent)
    (hok : createBatch now b s = .ok batch t) :
    Store.Appended .batch s t
      (⟨batch.id, b.fuzzerHost, b.testingHostId, b.userId, now.text⟩ : StoredBatch) := by
  obtain ⟨-, hok⟩ := checkLength_bind_eq_ok hok
  obtain ⟨row, s', hinsert, hret⟩ := bind_eq_ok hok
  cases hret
  obtain ⟨happ, hbuild⟩ := insertNew_ok (fun _ => rfl) h hinsert
  rw [hbuild] at happ
  exact happ

theorem addTestSuccess_ok {batchId opcodeId : Int} {count : Int32} {x : TestSuccess}
    (h : s.Coherent) (hok : addTestSuccess batchId opcodeId count s = .ok x t) :
    Store.Appended .testSuccess s t
      (⟨x.id, batchId, opcodeId, .int count.toInt⟩ : StoredSuccess) := by
  obtain ⟨row, s', hinsert, hret⟩ := bind_eq_ok hok
  cases hret
  obtain ⟨happ, hbuild⟩ := insertNew_ok (fun _ => rfl) h hinsert
  rw [hbuild] at happ
  exact happ

theorem addTestFailure_ok {f : NewTestFailure} {x : TestFailure} (h : s.Coherent)
    (hok : addTestFailure f s = .ok x t) :
    Store.Appended .testFailure s t x.stored ∧
      x = ⟨x.id, f.batchId, f.opcodeId, f.pretty, f.arguments⟩ := by
  obtain ⟨-, hok⟩ := checkLength_bind_eq_ok hok
  obtain ⟨row, s', hinsert, hret⟩ := bind_eq_ok hok
  cases hret
  obtain ⟨happ, hbuild⟩ := insertNew_ok (fun _ => rfl) h hinsert
  rw [hbuild] at happ
  exact ⟨happ, rfl⟩

theorem addTestFailureState_ok {d : NewTestFailureState} {x : TestFailureState} (h : s.Coherent)
    (hok : addTestFailureState d s = .ok x t) :
    Store.Appended .testFailureState s t x.stored ∧
      x = ⟨x.id, d.failureId, d.location, d.expected, d.actual⟩ := by
  obtain ⟨-, hok⟩ := checkLength_bind_eq_ok hok
  obtain ⟨-, hok⟩ := checkLength_bind_eq_ok hok
  obtain ⟨-, hok⟩ := checkLength_bind_eq_ok hok
  obtain ⟨row, s', hinsert, hret⟩ := bind_eq_ok hok
  cases hret
  obtain ⟨happ, hbuild⟩ := insertNew_ok (fun _ => rfl) h hinsert
  rw [hbuild] at happ
  exact ⟨happ, rfl⟩

end Action

/-! ## What the entries of a report say -/

/-- The success that an entry reports: the name of the opcode and the count. -/
def Entry.success? : Entry → Option (String × Int32)
  | .success opcode count => some (opcode, count)
  | .failure .. => none

/-- The failure that an entry reports. -/
structure ReportedFailure where
  opcode : String
  pretty : String
  arguments : String
  state : List StateDiff

def Entry.failure? : Entry → Option ReportedFailure
  | .success .. => none
  | .failure opcode pretty arguments state => some ⟨opcode, pretty, arguments, state⟩

/-- The differences that an entry reports. -/
def Entry.state : Entry → List StateDiff
  | .success .. => []
  | .failure _ _ _ state => state

/-- What a stored state says of a difference. -/
def TestFailureState.cells (d : TestFailureState TextCell) : TextCell × TextCell × TextCell :=
  (d.location, d.expected, d.actual)

/-- What is stored of a difference. -/
def StateDiff.cells (d : StateDiff) : TextCell × TextCell × TextCell :=
  (d.location, d.expected, d.actual)

/-- The rows that some entries are to add to a tally. -/
def Tally.after (tally : Tally) (entries : List Entry) : Tally where
  successes := tally.successes + (entries.filterMap Entry.success?).length
  failures := tally.failures + (entries.filterMap Entry.failure?).length
  states := tally.states + (entries.flatMap Entry.state).length

theorem Tally.after_append (tally : Tally) (entries entries' : List Entry) :
    tally.after (entries ++ entries') = (tally.after entries).after entries' := by
  simp only [Tally.after, List.filterMap_append, List.flatMap_append, List.length_append,
    Nat.add_assoc]

namespace Store

variable {s t u : Store} {batchId archId : Int}

/-- There is an opcode with the identifier, of that name and on that architecture. -/
def HasOpcode (s : Store) (archId id : Int) (name : String) : Prop :=
  (⟨id, name, archId⟩ : Opcode TextCell) ∈ s.opcodes.rows

/-- The row stores the success of a batch on an architecture. -/
structure StoresSuccess (s : Store) (batchId archId : Int) (row : StoredSuccess)
    (reported : String × Int32) : Prop where
  batch : row.batchId = batchId
  opcode : s.HasOpcode archId row.opcodeId reported.1
  count : row.count = .int reported.2.toInt

/-- The row stores the failure of a batch on an architecture, and the states that refer to it are
the reported differences in order. -/
structure StoresFailure (s : Store) (batchId archId : Int) (row : TestFailure TextCell)
    (reported : ReportedFailure) : Prop where
  batch : row.batchId = batchId
  opcode : s.HasOpcode archId row.opcodeId reported.opcode
  pretty : row.pretty = reported.pretty
  arguments : row.arguments = reported.arguments
  state : (s.states.rows.filter (·.failureId = row.id)).map TestFailureState.cells =
    reported.state.map StateDiff.cells

theorem batchId_of_storesSuccesses {rows : List StoredSuccess} {reported : List (String × Int32)}
    (h : List.Forall₂ (s.StoresSuccess batchId archId) rows reported) :
    ∀ x ∈ rows, x.batchId = batchId :=
  ((List.forall₂_and_left _ _).1 (h.imp fun _ _ hx => ⟨hx.batch, hx⟩)).1

theorem batchId_of_storesFailures {rows : List (TestFailure TextCell)}
    {reported : List ReportedFailure}
    (h : List.Forall₂ (s.StoresFailure batchId archId) rows reported) :
    ∀ f ∈ rows, f.batchId = batchId :=
  ((List.forall₂_and_left _ _).1 (h.imp fun _ _ hf => ⟨hf.batch, hf⟩)).1

/-- What recording some entries of a batch on an architecture has added to a store. -/
structure Recorded (batchId archId : Int) (entries : List Entry) (s t : Store) : Prop where
  coherent : t.Coherent
  frame : ∀ e ∉ [Entity.opcode, .testSuccess, .testFailure, .testFailureState],
    t.table e = s.table e
  opcodes : s.opcodes.rows <+: t.opcodes.rows
  successes : ∃ rows, t.successes.rows = s.successes.rows ++ rows ∧
    List.Forall₂ (t.StoresSuccess batchId archId) rows (entries.filterMap Entry.success?)
  failures : ∃ rows, t.failures.rows = s.failures.rows ++ rows ∧
    List.Forall₂ (t.StoresFailure batchId archId) rows (entries.filterMap Entry.failure?)
  states : ∃ rows, t.states.rows = s.states.rows ++ rows ∧
    ∀ d ∈ rows, s.failures.last < d.failureId
  last_le : s.failures.last ≤ t.failures.last

theorem Recorded.nil (h : s.Coherent) : Recorded batchId archId [] s s where
  coherent := h
  frame _ _ := rfl
  opcodes := List.prefix_rfl
  successes := ⟨[], (List.append_nil _).symm, .nil⟩
  failures := ⟨[], (List.append_nil _).symm, .nil⟩
  states := ⟨[], (List.append_nil _).symm, fun _ h => by cases h⟩
  last_le := Int.le_refl _

theorem HasOpcode.mono {id : Int} {name : String} (h : s.HasOpcode archId id name)
    (hle : s.opcodes.rows <+: t.opcodes.rows) : t.HasOpcode archId id name :=
  hle.subset h

theorem StoresSuccess.mono {row : StoredSuccess} {reported : String × Int32}
    (h : s.StoresSuccess batchId archId row reported) (hle : s.opcodes.rows <+: t.opcodes.rows) :
    t.StoresSuccess batchId archId row reported :=
  ⟨h.batch, h.opcode.mono hle, h.count⟩

/-- States of later failures do not disturb those of an earlier one. -/
theorem StoresFailure.mono {row : TestFailure TextCell} {reported : ReportedFailure}
    (h : s.StoresFailure batchId archId row reported) (hle : s.opcodes.rows <+: t.opcodes.rows)
    (hrow : row.id ≤ s.failures.last)
    (hstates : ∃ rows, t.states.rows = s.states.rows ++ rows ∧
      ∀ d ∈ rows, s.failures.last < d.failureId) :
    t.StoresFailure batchId archId row reported := by
  obtain ⟨rows, hrows, hlast⟩ := hstates
  refine ⟨h.batch, h.opcode.mono hle, h.pretty, h.arguments, ?_⟩
  have hnone : rows.filter (·.failureId = row.id) = [] := by
    rw [List.filter_eq_nil_iff]
    intro d hd
    have := hlast d hd
    rw [decide_eq_true_eq]
    omega
  rw [hrows, List.filter_append, hnone, List.append_nil, h.state]

/-- **What is recorded in two steps is recorded of both lists of entries.** -/
theorem Recorded.trans {entries entries' : List Entry} (h : Recorded batchId archId entries s t)
    (h' : Recorded batchId archId entries' t u) :
    Recorded batchId archId (entries ++ entries') s u := by
  refine ⟨h'.coherent, fun e he => ?_, h.opcodes.trans h'.opcodes, ?_, ?_, ?_,
    Int.le_trans h.last_le h'.last_le⟩
  · rw [h'.frame e he, h.frame e he]
  · obtain ⟨rows, hrows, hstored⟩ := h.successes
    obtain ⟨rows', hrows', hstored'⟩ := h'.successes
    refine ⟨rows ++ rows', by rw [hrows', hrows, List.append_assoc], ?_⟩
    rw [List.filterMap_append]
    exact List.rel_append (hstored.imp fun _ _ hrow => hrow.mono h'.opcodes) hstored'
  · obtain ⟨rows, hrows, hstored⟩ := h.failures
    obtain ⟨rows', hrows', hstored'⟩ := h'.failures
    refine ⟨rows ++ rows', by rw [hrows', hrows, List.append_assoc], ?_⟩
    have hid : ∀ row ∈ rows, row.id ≤ t.failures.last := by
      intro row hrow
      have hmem : row ∈ t.failures.rows := by rw [hrows]; exact List.mem_append_right _ hrow
      exact h.coherent.id_le_last .testFailure row hmem
    rw [List.filterMap_append]
    refine List.rel_append ?_ hstored'
    refine ((List.forall₂_and_left _ _).2 ⟨hid, hstored⟩).imp fun row reported hrow => ?_
    exact hrow.2.mono h'.opcodes hrow.1 h'.states
  · obtain ⟨rows, hrows, hlast⟩ := h.states
    obtain ⟨rows', hrows', hlast'⟩ := h'.states
    refine ⟨rows ++ rows', by rw [hrows', hrows, List.append_assoc], fun d hd => ?_⟩
    rcases List.mem_append.1 hd with hd | hd
    · exact hlast d hd
    · have := hlast' d hd
      have := h.last_le
      omega

/-! ## One entry -/

theorem Recorded.success {name : String} {count : Int32} {row : StoredSuccess}
    (hopcode : GrowsIn .opcode s t) (hhas : t.HasOpcode archId row.opcodeId name)
    (happ : Appended .testSuccess t u row) (hbatch : row.batchId = batchId)
    (hcount : row.count = .int count.toInt) :
    Recorded batchId archId [.success name count] s u := by
  have hopcodes : u.opcodes.rows = t.opcodes.rows := happ.rows_of_ne (f := .opcode) (by decide)
  have hsuccesses : t.successes.rows = s.successes.rows :=
    hopcode.rows_of_ne (f := .testSuccess) (by decide)
  have hfailures : u.failures = s.failures :=
    (happ.frame .testFailure (by decide)).trans (hopcode.frame .testFailure (by decide))
  have hstates : u.states = s.states :=
    (happ.frame .testFailureState (by decide)).trans (hopcode.frame .testFailureState (by decide))
  refine ⟨happ.coherent, fun e he => ?_, ?_, ⟨[row], ?_, ?_⟩, ⟨[], ?_, .nil⟩, ⟨[], ?_, ?_⟩, ?_⟩
  · rw [happ.frame e (by rintro rfl; simp at he), hopcode.frame e (by rintro rfl; simp at he)]
  · rw [hopcodes]; exact hopcode.rows
  · rw [← hsuccesses]; exact happ.rows_eq
  · refine .cons ⟨hbatch, ?_, hcount⟩ .nil
    rw [HasOpcode, hopcodes]
    exact hhas
  · rw [hfailures, List.append_nil]
  · rw [hstates, List.append_nil]
  · exact fun _ hd => by cases hd
  · simp only [hfailures, Int.le_refl]

theorem Recorded.failure {v : Store} {name pretty arguments : String}
    {row : TestFailure TextCell} {diffs : List StateDiff}
    (hopcode : GrowsIn .opcode s t) (hhas : t.HasOpcode archId row.opcodeId name)
    (happ : Appended .testFailure t u row) (hbatch : row.batchId = batchId)
    (hpretty : row.pretty = pretty) (harguments : row.arguments = arguments)
    (hgrows : GrowsIn .testFailureState u v)
    (hrows : ∃ rows, v.states.rows = u.states.rows ++ rows ∧
      rows.map TestFailureState.cells = diffs.map StateDiff.cells ∧
        ∀ d ∈ rows, d.failureId = row.id) :
    Recorded batchId archId [.failure name pretty arguments diffs] s v := by
  obtain ⟨rows, hrows, hdiffs, hid⟩ := hrows
  have hopcodes : v.opcodes.rows = t.opcodes.rows :=
    (hgrows.rows_of_ne (f := .opcode) (by decide)).trans
      (happ.rows_of_ne (f := .opcode) (by decide))
  have hsuccesses : v.successes.rows = s.successes.rows :=
    (hgrows.rows_of_ne (f := .testSuccess) (by decide)).trans
      ((happ.rows_of_ne (f := .testSuccess) (by decide)).trans
        (hopcode.rows_of_ne (f := .testSuccess) (by decide)))
  have hfailures : t.failures = s.failures := hopcode.frame .testFailure (by decide)
  have hfailures' : v.failures = u.failures := hgrows.frame .testFailure (by decide)
  have hstates : u.states.rows = s.states.rows :=
    (happ.rows_of_ne (f := .testFailureState) (by decide)).trans
      (hopcode.rows_of_ne (f := .testFailureState) (by decide))
  have hrow : row.id = s.failures.last + 1 := by rw [← hfailures]; exact happ.id_eq
  have hlast : v.failures.last = s.failures.last + 1 := by
    rw [hfailures', ← hfailures]; exact happ.last_eq
  -- the failure is new, so no state refers to it yet
  have hold : u.states.rows.filter (·.failureId = row.id) = [] := by
    rw [List.filter_eq_nil_iff]
    intro d hd hid
    rw [decide_eq_true_eq] at hid
    refine happ.not_mem_references hopcode.coherent (f := .testFailureState) (by decide) hd ?_
    simp [Row.references_eq, hid, Row.id]
  have hnew : rows.filter (·.failureId = row.id) = rows :=
    List.filter_eq_self.2 fun d hd => decide_eq_true (hid d hd)
  refine ⟨hgrows.coherent, fun e he => ?_, ?_, ⟨[], ?_, .nil⟩, ⟨[row], ?_, ?_⟩, ⟨rows, ?_, ?_⟩, ?_⟩
  · rw [hgrows.frame e (by rintro rfl; simp at he), happ.frame e (by rintro rfl; simp at he),
      hopcode.frame e (by rintro rfl; simp at he)]
  · rw [hopcodes]; exact hopcode.rows
  · rw [hsuccesses, List.append_nil]
  · rw [hfailures', ← hfailures]; exact happ.rows_eq
  · refine .cons ⟨hbatch, ?_, hpretty, harguments, ?_⟩ .nil
    · rw [HasOpcode, hopcodes]; exact hhas
    · rw [hrows, List.filter_append, hold, hnew, List.nil_append, hdiffs]
  · rw [hrows, hstates]
  · intro d hd
    rw [hid d hd, hrow]
    omega
  · omega

/-- The opcodes that were resolved exist under their names. -/
def Remembers (s : Store) (archId : Int) (known : KnownOpcodes) : Prop :=
  ∀ name id, known.lookup name = some id → s.HasOpcode archId id name

end Store

namespace Action

variable {s t : Store} {batchId archId : Int}

theorem resolveOpcode_ok {known : KnownOpcodes} {name : String} {resolved : Int × KnownOpcodes}
    (h : s.Coherent) (hknown : s.Remembers archId known)
    (hok : recorder.resolveOpcode archId known name s = .ok resolved t) :
    Store.GrowsIn .opcode s t ∧ t.HasOpcode archId resolved.1 name ∧
      t.Remembers archId resolved.2 := by
  unfold Recorder.resolveOpcode at hok
  cases hlookup : known.lookup name with
  | some id =>
    rw [hlookup] at hok
    cases hok
    exact ⟨.refl h, hknown name id hlookup, hknown⟩
  | none =>
    rw [hlookup] at hok
    obtain ⟨opcode, s', hensure, hret⟩ := bind_eq_ok hok
    cases hret
    obtain ⟨hgrows, hmem, hname, harch⟩ := ensureOpcode_ok h hensure
    have hhas : t.HasOpcode archId opcode.id name := by
      rw [← hname, ← harch]
      exact hmem
    refine ⟨hgrows, hhas, fun other id hother => ?_⟩
    rw [List.lookup_cons] at hother
    split at hother
    · rename_i heq
      rw [beq_iff_eq] at heq
      cases hother
      rw [heq]
      exact hhas
    · exact (hknown other id hother).mono hgrows.rows

/-- The differences of a failure become rows that refer to it, in order. -/
theorem recordDiffs_ok (index : Nat) (failureId : Int) :
    ∀ {diffs : List StateDiff} {tally tally' : Tally} {s t : Store}, s.Coherent →
      recorder.recordDiffs index failureId tally diffs s = .ok tally' t →
      Store.GrowsIn .testFailureState s t ∧
      tally' = { tally with states := tally.states + diffs.length } ∧
      ∃ rows, t.states.rows = s.states.rows ++ rows ∧
        rows.map TestFailureState.cells = diffs.map StateDiff.cells ∧
          ∀ d ∈ rows, d.failureId = failureId
  | [], tally, tally', s, t, h, hok => by
    cases hok
    exact ⟨.refl h, rfl, [], (List.append_nil _).symm, rfl, fun _ hd => by cases hd⟩
  | d :: diffs, tally, tally', s, t, h, hok => by
    obtain ⟨row, s', hadd, hrest⟩ := bind_eq_ok hok
    obtain ⟨happ, hrow⟩ := addTestFailureState_ok h (within_eq_ok hadd)
    obtain ⟨hgrows, htally, rows, hrows, hdiffs, hid⟩ :=
      recordDiffs_ok index failureId happ.coherent hrest
    have hstates : s'.states.rows = s.states.rows ++ [row.stored] := happ.rows_eq
    refine ⟨happ.toGrowsIn.trans hgrows, ?_, row.stored :: rows, ?_, ?_, ?_⟩
    · rw [htally, List.length_cons, Nat.add_assoc, Nat.add_comm 1]
    · rw [hrows, hstates, List.append_assoc, List.singleton_append]
    · rw [List.map_cons, List.map_cons, hdiffs, hrow]
      rfl
    · intro q hq
      rcases List.mem_cons.1 hq with rfl | hq
      · rw [hrow]
        rfl
      · exact hid q hq

/-- **One entry**: its opcode is resolved and its outcome is stored. -/
theorem recordEntry_ok {index : Nat} {entry : Entry} {opcodeId : Int} {tally tally' : Tally}
    {u : Store} (hopcode : Store.GrowsIn .opcode s t)
    (hhas : t.HasOpcode archId opcodeId entry.opcode)
    (hok : recorder.recordOutcome index batchId opcodeId tally entry t = .ok tally' u) :
    Store.Recorded batchId archId [entry] s u ∧ t.opcodes.rows <+: u.opcodes.rows ∧
      tally' = tally.after [entry] := by
  cases entry with
  | success name count =>
    obtain ⟨row, s', hadd, hret⟩ := bind_eq_ok hok
    cases hret
    have happ := addTestSuccess_ok hopcode.coherent hadd
    have hopcodes : u.opcodes.rows = t.opcodes.rows := happ.rows_of_ne (f := .opcode) (by decide)
    refine ⟨.success hopcode hhas happ rfl rfl, ?_, rfl⟩
    simp only [hopcodes, List.prefix_rfl]
  | failure name pretty arguments state =>
    obtain ⟨row, s', hadd, hok⟩ := bind_eq_ok hok
    obtain ⟨between, t', hdiffs, hret⟩ := bind_eq_ok hok
    cases hret
    obtain ⟨happ, hrow⟩ := addTestFailure_ok hopcode.coherent (within_eq_ok hadd)
    obtain ⟨hgrows, htally, hrows⟩ := recordDiffs_ok index row.id happ.coherent hdiffs
    obtain ⟨id, rfl⟩ : ∃ id, row = ⟨id, batchId, opcodeId, pretty, arguments⟩ := ⟨row.id, hrow⟩
    have hopcodes : u.opcodes.rows = t.opcodes.rows :=
      (hgrows.rows_of_ne (f := .opcode) (by decide)).trans
        (happ.rows_of_ne (f := .opcode) (by decide))
    refine ⟨.failure hopcode hhas happ rfl rfl rfl hgrows hrows, ?_, ?_⟩
    · simp only [hopcodes, List.prefix_rfl]
    · simp [htally, Tally.after, Entry.success?, Entry.failure?, Entry.state]

/-! ## All entries -/

/-- **Recording the entries of a report stores them all**, in order and each with its own
differences, and counts them. -/
theorem recordEntries_ok :
    ∀ {entries : List Entry} {index : Nat} {known : KnownOpcodes} {tally tally' : Tally}
      {s t : Store}, s.Coherent → s.Remembers archId known →
      recorder.recordEntries batchId archId index known tally entries s = .ok tally' t →
      Store.Recorded batchId archId entries s t ∧ tally' = tally.after entries
  | [], _, _, _, _, _, _, h, _, hok => by
    cases hok
    exact ⟨.nil h, rfl⟩
  | entry :: entries, index, known, tally, tally', s, t, h, hknown, hok => by
    obtain ⟨resolved, s₁, hresolve, hok⟩ := bind_eq_ok hok
    obtain ⟨between, s₂, houtcome, hrest⟩ := bind_eq_ok hok
    obtain ⟨hopcode, hhas, hknown⟩ := resolveOpcode_ok h hknown (within_eq_ok hresolve)
    obtain ⟨hentry, hle, hbetween⟩ := recordEntry_ok hopcode hhas houtcome
    obtain ⟨hentries, htally⟩ := recordEntries_ok hentry.coherent
      (fun name id hlookup => (hknown name id hlookup).mono hle) hrest
    exact ⟨hentry.trans hentries, by rw [htally, hbetween, ← Tally.after_append]; rfl⟩

end Action

/-! ## The whole report -/

/-- Tables that a stage does not touch are the same after it. -/
theorem Store.frame_of_stages {s s₁ s₂ s₃ s₄ : Store} {b : StoredBatch}
    (hgrows₁ : GrowsIn .user s s₁)
    (hgrows₂ : GrowsIn .arch s₁ s₂) (hgrows₃ : GrowsIn .host s₂ s₃)
    (happ : Appended .batch s₃ s₄ b) {e : Entity}
    (he : e ∉ [Entity.user, .arch, .host, .batch]) : s₄.table e = s.table e := by
  rw [happ.frame e (by rintro rfl; simp at he), hgrows₃.frame e (by rintro rfl; simp at he),
    hgrows₂.frame e (by rintro rfl; simp at he), hgrows₁.frame e (by rintro rfl; simp at he)]

/-- **What a successful recording has gone through**: the user, the architecture and the host were
found or added, each in a stage of its own, then the batch was added, and then what hangs off it. -/
theorem Action.recordReport_ok {s t : Store} {now : Stamp} {r : Report} {m : Summary}
    (h : s.Coherent) (hok : recordReport now r s = .ok m t) :
    ∃ (user : User) (arch : Arch) (host : Host) (s₁ s₂ s₃ s₄ : Store),
      (Store.GrowsIn .user s s₁ ∧ user.stored ∈ s₁.users.rows ∧ user.username = r.user) ∧
      (Store.GrowsIn .arch s₁ s₂ ∧ arch.stored ∈ s₂.arches.rows ∧ arch.name = r.arch) ∧
      (Store.GrowsIn .host s₂ s₃ ∧ host.stored ∈ s₃.hosts.rows ∧ host.hostname = r.testingHost ∧
        host.archId = arch.id) ∧
      Store.Appended .batch s₃ s₄
        (⟨m.batchId, r.fuzzingHost, host.id, user.id, now.text⟩ : StoredBatch) ∧
      Store.Recorded m.batchId arch.id r.entries s₄ t ∧
      (⟨m.successes, m.failures, m.states⟩ : Tally) = Tally.after {} r.entries := by
  obtain ⟨user, s₁, huser, hok⟩ := bind_eq_ok hok
  obtain ⟨arch, s₂, harch, hok⟩ := bind_eq_ok hok
  obtain ⟨host, s₃, hhost, hok⟩ := bind_eq_ok hok
  obtain ⟨batch, s₄, hbatch, hok⟩ := bind_eq_ok hok
  obtain ⟨tally, s₅, hentries, hret⟩ := bind_eq_ok hok
  cases hret
  have huser := ensureUser_ok h (within_eq_ok huser)
  have harch := ensureArch_ok huser.1.coherent (within_eq_ok harch)
  have hhost := ensureHost_ok harch.1.coherent (within_eq_ok hhost)
  have happ := createBatch_ok hhost.1.coherent hbatch
  obtain ⟨hrec, htally⟩ :=
    recordEntries_ok happ.coherent (fun _ _ hlookup => by cases hlookup) hentries
  exact ⟨user, arch, host, s₁, s₂, s₃, s₄, huser, harch, hhost, happ, hrec, htally⟩

end FuzzLedger
