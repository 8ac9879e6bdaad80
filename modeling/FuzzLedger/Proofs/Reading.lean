import FuzzLedger.Proofs.Atomicity
import FuzzLedger.Proofs.Content
import FuzzLedger.Proofs.Offence
import FuzzLedger.Proofs.ReadBack

/-!
# Reading succeeds

Reading can fail for a time that is no timestamp, for a count that has no 32 bits, and for a row
that refers to one that does not exist.  No run of writing operations leaves any of these.

* `Sound.readable` — every row can be read, because its texts, counts and times were checked.
* `Listing` — the lists that can be read, each of them rows of one table; `read_listing`: each is
  read row by row.
* `viewBatch_of_mem` — a batch is shown with its host and its user, because foreign keys hold.
* `performShowBatch_cases` — hence showing a batch succeeds on an open ledger exactly if the batch
  is there; `Invocation.failure_of_showBatch` takes this to whole runs.
* `reads_succeed` — what can be read of any ledger that the operations have left: everything but
  what is not there.
-/

set_option autoImplicit false

namespace FuzzLedger

/-! ## Lists of rows -/

/-- The lists that can be read. -/
inductive Listing where
  | batches
  | hostsForArch (archId : Int)
  | opcodesForArch (archId : Int)
  | successesForBatch (batchId : Int)
  | failuresForBatch (batchId : Int)
  | statesForFailure (failureId : Int)

namespace Listing

/-- The kind of the rows. -/
def kind : Listing → Entity
  | .batches => .batch
  | .hostsForArch _ => .host
  | .opcodesForArch _ => .opcode
  | .successesForBatch _ => .testSuccess
  | .failuresForBatch _ => .testFailure
  | .statesForFailure _ => .testFailureState

/-- The row to which all of them refer; a list without one has all rows of its table. -/
def parent? : Listing → Option RowRef
  | .batches => none
  | .hostsForArch archId => some (.arch, archId)
  | .opcodesForArch archId => some (.arch, archId)
  | .successesForBatch batchId => some (.batch, batchId)
  | .failuresForBatch batchId => some (.batch, batchId)
  | .statesForFailure failureId => some (.testFailure, failureId)

/-- The query for the list. -/
def read : (l : Listing) → Store → Except Fault (List (Item l.kind))
  | .batches, s => s.listBatches
  | .hostsForArch archId, s => s.hostsForArch archId
  | .opcodesForArch archId, s => s.opcodesForArch archId
  | .successesForBatch batchId, s => s.successesForBatch batchId
  | .failuresForBatch batchId, s => s.failuresForBatch batchId
  | .statesForFailure failureId, s => s.statesForFailure failureId

/-- A row belongs to the list. -/
def Lists (l : Listing) (s : Store) (r : Row l.kind) : Prop :=
  r ∈ s.rows l.kind ∧ ∀ ref ∈ l.parent?, ref ∈ Row.references l.kind r

/-- The rows of the list, in its order. -/
def rows : (l : Listing) → Store → List (Row l.kind)
  | .batches, s => (s.rows .batch).mergeSort Store.listedBefore
  | .hostsForArch archId, s => s.referring .host (.arch, archId)
  | .opcodesForArch archId, s => s.referring .opcode (.arch, archId)
  | .successesForBatch batchId, s => s.referring .testSuccess (.batch, batchId)
  | .failuresForBatch batchId, s => s.referring .testFailure (.batch, batchId)
  | .statesForFailure failureId, s => s.referring .testFailureState (.testFailure, failureId)

theorem read_eq (l : Listing) (s : Store) : l.read s = readAll l.kind (l.rows s) := by
  cases l <;> rfl

end Listing

namespace Store

variable {s : Store} {e : Entity}

theorem mem_referring_iff {parent : RowRef} {r : Row e} :
    r ∈ s.referring e parent ↔
      r ∈ s.rows e ∧ ∀ ref ∈ some parent, ref ∈ Row.references e r := by
  rw [referring, List.mem_filter, List.contains_iff_mem]
  simp

theorem mem_sorted_iff {b : StoredBatch} :
    b ∈ (s.rows .batch).mergeSort listedBefore ↔
      b ∈ s.rows .batch ∧ ∀ ref ∈ (none : Option RowRef), ref ∈ Row.references .batch b := by
  rw [List.mem_mergeSort]
  simp

theorem mem_listing_iff (l : Listing) {r : Row l.kind} : r ∈ l.rows s ↔ l.Lists s r := by
  cases l with
  | batches => exact mem_sorted_iff
  | hostsForArch archId => exact mem_referring_iff
  | opcodesForArch archId => exact mem_referring_iff
  | successesForBatch batchId => exact mem_referring_iff
  | failuresForBatch batchId => exact mem_referring_iff
  | statesForFailure failureId => exact mem_referring_iff

/-! ## Rows that can be read -/

/-- **Every row can be read**, if it was written by the operations. -/
theorem Sound.readable (h : s.Sound) {r : Row e} (hr : r ∈ s.rows e) :
    ∃ item, Row.read e r = .ok item :=
  (h.tidy.proper e r hr).readable

theorem Sound.readAll_ok (h : s.Sound) {rows : List (Row e)} (hrows : ∀ r ∈ rows, r ∈ s.rows e) :
    ∃ items, readAll e rows = .ok items ∧
      List.Forall₂ (fun r item => Row.read e r = .ok item) rows items := by
  suffices hread : ∃ items, List.Forall₂ (fun r item => Row.read e r = .ok item) rows items by
    obtain ⟨items, hitems⟩ := hread
    exact ⟨items, readAll_eq_ok hitems, hitems⟩
  induction rows with
  | nil => exact ⟨[], .nil⟩
  | cons r rows ih =>
    obtain ⟨item, hitem⟩ := h.readable (hrows r List.mem_cons_self)
    obtain ⟨items, hitems⟩ := ih fun q hq => hrows q (List.mem_cons_of_mem _ hq)
    exact ⟨item :: items, .cons hitem hitems⟩

theorem Sound.read_listing (h : s.Sound) (l : Listing) :
    ∃ items, l.read s = .ok items ∧
      List.Forall₂ (fun r item => Row.read l.kind r = .ok item) (l.rows s) items := by
  rw [l.read_eq]
  exact h.readAll_ok fun r hr => ((mem_listing_iff l).1 hr).1

theorem get_of_not_has {id : Int} (h : ∀ r ∈ s.rows e, Row.id e r ≠ id) (hs : s.Coherent) :
    s.get e id = .error (.notFound e id) := by
  rw [get, hs.find?_eq_none_iff.2 h]

/-- What is found by a name is the row with the name, as it is read. -/
theorem Sound.findNamed?_ok (h : s.Sound) (e : Entity) (name : String) :
    ∃ found, s.findNamed? e name = .ok found ∧ ∀ x, found = some x ↔
      ∃ r ∈ s.rows e, Row.uniqueName? e r = some (.text name) ∧ Row.read e r = .ok x := by
  unfold findNamed?
  cases hfind : (s.table e).findNamed? name with
  | none =>
    refine ⟨none, rfl, fun x => iff_of_false (by simp) ?_⟩
    rintro ⟨r, hr, hname, -⟩
    exact findNamed?_eq_none_iff.1 hfind r hr hname
  | some q =>
    obtain ⟨hq, hqname⟩ := h.coherent.findNamed?_eq_some_iff.1 hfind
    obtain ⟨item, hitem⟩ := h.readable hq
    refine ⟨some item, by simp only [hitem]; rfl, fun x => ⟨?_, ?_⟩⟩
    · rintro ⟨⟩
      exact ⟨q, hq, hqname, hitem⟩
    · rintro ⟨r, hr, hname, hread⟩
      rw [h.coherent.names e q hq r hr _ hqname hname, hread] at hitem
      cases hitem
      rfl

theorem Sound.findUser?_ok (h : s.Sound) (username : String) :
    ∃ found, s.findUser? username = .ok found ∧
      ∀ u, found = some u ↔ u.stored ∈ s.users.rows ∧ u.username = username := by
  obtain ⟨found, hfind, hfound⟩ := h.findNamed?_ok .user username
  refine ⟨found, hfind, fun u => (hfound u).trans ⟨?_, ?_⟩⟩
  · rintro ⟨r, hr, hname, hread⟩
    cases User.read_eq_ok_iff.1 hread
    exact ⟨hr, TextCell.text.inj (Option.some.inj hname)⟩
  · rintro ⟨hmem, rfl⟩
    exact ⟨u.stored, hmem, rfl, User.read_eq_ok_iff.2 rfl⟩

theorem Sound.findArch?_ok (h : s.Sound) (name : String) :
    ∃ found, s.findArch? name = .ok found ∧
      ∀ a, found = some a ↔ a.stored ∈ s.arches.rows ∧ a.name = name := by
  obtain ⟨found, hfind, hfound⟩ := h.findNamed?_ok .arch name
  refine ⟨found, hfind, fun a => (hfound a).trans ⟨?_, ?_⟩⟩
  · rintro ⟨r, hr, hname, hread⟩
    cases Arch.read_eq_ok_iff.1 hread
    exact ⟨hr, TextCell.text.inj (Option.some.inj hname)⟩
  · rintro ⟨hmem, rfl⟩
    exact ⟨a.stored, hmem, rfl, Arch.read_eq_ok_iff.2 rfl⟩

theorem Sound.findHost?_ok (h : s.Sound) (hostname : String) :
    ∃ found, s.findHost? hostname = .ok found ∧
      ∀ q, found = some q ↔ q.stored ∈ s.hosts.rows ∧ q.hostname = hostname := by
  obtain ⟨found, hfind, hfound⟩ := h.findNamed?_ok .host hostname
  refine ⟨found, hfind, fun q => (hfound q).trans ⟨?_, ?_⟩⟩
  · rintro ⟨r, hr, hname, hread⟩
    cases Host.read_eq_ok_iff.1 hread
    exact ⟨hr, TextCell.text.inj (Option.some.inj hname)⟩
  · rintro ⟨hmem, rfl⟩
    exact ⟨q.stored, hmem, rfl, Host.read_eq_ok_iff.2 rfl⟩

/-! ## Batches as they are shown -/

theorem Sound.viewFailures_ok (h : s.Sound) (failures : List TestFailure) :
    ∃ views, s.viewFailures failures = .ok views := by
  induction failures with
  | nil => exact ⟨[], rfl⟩
  | cons f failures ih =>
    obtain ⟨views, hviews⟩ := ih
    obtain ⟨states, hread, -⟩ := h.read_listing (.statesForFailure f.id)
    have hstates : s.statesForFailure f.id = .ok states := hread
    refine ⟨⟨f, states⟩ :: views, ?_⟩
    rw [viewFailures, hstates, hviews]
    rfl

/-- A batch is read with the references that it is stored with. -/
theorem references_of_read {b : StoredBatch} {item : Batch} (h : b.read = .ok item) :
    item.testingHostId = b.testingHostId ∧ item.userId = b.userId := by
  obtain ⟨time, rfl, -⟩ := StoredBatch.read_eq_ok_iff.1 h
  exact ⟨rfl, rfl⟩

/-- What a row refers to can be read. -/
theorem Sound.get_of_reference (h : s.Sound) {r : Row e} (hr : r ∈ s.rows e) {f : Entity} {id : Int}
    (href : (f, id) ∈ Row.references e r) : ∃ item, s.get f id = .ok item := by
  obtain ⟨q, hq, hid⟩ := has_iff.1 (h.coherent.parents e r hr (f, id) href)
  obtain ⟨item, hitem⟩ := h.readable hq
  refine ⟨item, ?_⟩
  rw [← show Row.id f q = id from hid, h.coherent.get_of_mem hq, hitem]

/-- **A batch that is there is shown**: it has its host and its user. -/
theorem Sound.viewBatch_of_mem (h : s.Sound) {b : StoredBatch} (hb : b ∈ s.batches.rows) :
    ∃ view, s.viewBatch b.id = .ok view := by
  obtain ⟨batch, hread⟩ := h.readable (e := .batch) hb
  obtain ⟨hhostId, huserId⟩ := references_of_read hread
  obtain ⟨host, hhost⟩ := h.get_of_reference (e := .batch) (f := .host) hb List.mem_cons_self
  obtain ⟨user, huser⟩ := h.get_of_reference (e := .batch) (f := .user) hb
    (List.mem_cons_of_mem _ List.mem_cons_self)
  obtain ⟨successes, hsuccesses, -⟩ := h.read_listing (.successesForBatch b.id)
  obtain ⟨failures, hfailures, -⟩ := h.read_listing (.failuresForBatch b.id)
  obtain ⟨views, hviews⟩ := h.viewFailures_ok failures
  have hbatch : s.get .batch b.id = .ok batch := by
    rw [← hread]
    exact h.coherent.get_of_mem (e := .batch) hb
  have hsuccesses : s.successesForBatch b.id = .ok successes := hsuccesses
  have hfailures : s.failuresForBatch b.id = .ok failures := hfailures
  -- the foreign keys speak of the stored batch, the view looks up what was read
  rw [← hhostId] at hhost
  rw [← huserId] at huser
  refine ⟨⟨batch, host, user, successes, views⟩, ?_⟩
  simp only [viewBatch, hbatch, hhost, huser, hsuccesses, hfailures, hviews, Bind.bind, Except.bind]
  rfl

theorem Coherent.viewBatch_of_not_has (h : s.Coherent) {id : Int}
    (hnone : ∀ b ∈ s.batches.rows, b.id ≠ id) : s.viewBatch id = .error (.notFound .batch id) := by
  rw [viewBatch, get_of_not_has (e := .batch) hnone h]
  rfl

end Store

/-! ## Reading a session -/

namespace Session

variable {s : Session} {store : Store}

/-- A row is read under its identifier; where there is none, reading fails for that. -/
theorem query_get (h : store.Sound) (htables : s.image.tables = some store) (e : Entity)
    (id : Int) :
    (∀ r ∈ store.rows e, Row.id e r = id →
      ∃ item, Row.read e r = .ok item ∧ query e (·.get e id) s = .ok item s) ∧
    ((∀ r ∈ store.rows e, Row.id e r ≠ id) →
      query e (·.get e id) s = .error ⟨.notFound e id, []⟩ s) := by
  simp only [query_eq htables]
  refine ⟨fun r hr hid => ?_, fun hnone => ?_⟩
  · obtain ⟨item, hitem⟩ := h.readable hr
    rw [← hid, h.coherent.get_of_mem hr, hitem]
    exact ⟨item, rfl, rfl⟩
  · rw [Store.get_of_not_has hnone h.coherent]

theorem query_listing (h : store.Sound) (htables : s.image.tables = some store) (l : Listing) :
    ∃ rows items, (∀ r, r ∈ rows ↔ l.Lists store r) ∧
      List.Forall₂ (fun r item => Row.read l.kind r = .ok item) rows items ∧
      query l.kind l.read s = .ok items s := by
  obtain ⟨items, hread, hitems⟩ := h.read_listing l
  refine ⟨l.rows store, items, fun r => Store.mem_listing_iff l, hitems, ?_⟩
  rw [query_eq htables, hread]

/-- **A batch is shown if it is there**; otherwise it is the batch that is not found. -/
theorem performShowBatch_cases (h : store.Sound) (htables : s.image.tables = some store)
    (id : Int) :
    ((∃ b ∈ store.batches.rows, b.id = id) → ∃ v, store.viewBatch id = .ok v ∧
      performShowBatch id s = .ok ⟨v.toJson, v.text⟩ s) ∧
    ((∀ b ∈ store.batches.rows, b.id ≠ id) →
      performShowBatch id s = .error ⟨.notFound .batch id, []⟩ s) := by
  refine ⟨fun hbatch => ?_, fun hnone => ?_⟩
  · obtain ⟨b, hb, hid⟩ := hbatch
    obtain ⟨v, hv⟩ := h.viewBatch_of_mem hb
    rw [show StoredBatch.id b = id from hid] at hv
    refine ⟨v, hv, ?_⟩
    simp only [performShowBatch, Bind.bind, EStateM.bind, query_eq htables, hv]
    rfl
  · have hv := h.coherent.viewBatch_of_not_has hnone
    simp only [performShowBatch, Bind.bind, EStateM.bind, query_eq htables, hv]

end Session

/-- A run that shows a batch succeeds if the batch is there and the output takes it; without the
batch it fails for that, whatever the output. -/
theorem Invocation.failure_of_showBatch {i : Invocation} {d : Directory} {o : Opened}
    {store : Store} {id : Int} (clock : Clock) (output : Output)
    (hcommand : i.command = .showBatch id)
    (hopen : openDatabase d (i.settings d) = .ok o) (h : store.Sound)
    (htables : o.session.image.tables = some store) :
    ((∃ b ∈ store.batches.rows, b.id = id) → output 0 = .taken →
      (i.run d clock output).failure = none) ∧
    ((∀ b ∈ store.batches.rows, b.id ≠ id) →
      (i.run d clock output).failure = some ⟨.notFound .batch id, []⟩) := by
  have hrun : i.run d clock output =
      runCall output (i.settings d).format o (performShowBatch id) := by
    simp only [run, hcommand, hopen, Command.runOn]
  obtain ⟨hshown, hmissing⟩ := Session.performShowBatch_cases h htables id
  rw [hrun]
  refine ⟨fun hbatch htaken => ?_, fun hnone => ?_⟩
  · obtain ⟨v, -, hcall⟩ := hshown hbatch
    simp only [runCall, hcall, htaken, emit, Reception.print]
  · simp only [runCall, hmissing hnone]

/-- **Reading what the operations have written succeeds.**  After any run that wrote nothing past
the operations there are tables, and reading them changes nothing.

* A row is read under its identifier; without such a row, reading fails because it is not found.
* Every list is read, row by row.
* A user, an architecture or a host is found by its name exactly if it is there; rows are counted.
* Showing a batch succeeds if the batch is there, and otherwise fails because the batch is not
  found. -/
theorem Session.reads_succeed {run : List Event} (hrun : ∀ event ∈ run, event.isDirect = false) :
    ∃ store, (fresh.steps run).image.tables = some store ∧
      (∀ e id,
        (∀ r ∈ store.rows e, Row.id e r = id → ∃ item, Row.read e r = .ok item ∧
          query e (·.get e id) (fresh.steps run) = .ok item (fresh.steps run)) ∧
        ((∀ r ∈ store.rows e, Row.id e r ≠ id) →
          query e (·.get e id) (fresh.steps run) =
            .error ⟨.notFound e id, []⟩ (fresh.steps run))) ∧
      (∀ l : Listing, ∃ rows items, (∀ r, r ∈ rows ↔ l.Lists store r) ∧
        List.Forall₂ (fun r item => Row.read l.kind r = .ok item) rows items ∧
        query l.kind l.read (fresh.steps run) = .ok items (fresh.steps run)) ∧
      (∀ username, ∃ found,
        query .user (·.findUser? username) (fresh.steps run) = .ok found (fresh.steps run) ∧
        ∀ u, found = some u ↔ u.stored ∈ store.users.rows ∧ u.username = username) ∧
      (∀ name, ∃ found,
        query .arch (·.findArch? name) (fresh.steps run) = .ok found (fresh.steps run) ∧
        ∀ a, found = some a ↔ a.stored ∈ store.arches.rows ∧ a.name = name) ∧
      (∀ hostname, ∃ found,
        query .host (·.findHost? hostname) (fresh.steps run) = .ok found (fresh.steps run) ∧
        ∀ h, found = some h ↔ h.stored ∈ store.hosts.rows ∧ h.hostname = hostname) ∧
      (∀ e, query e (fun s => .ok (s.count e)) (fresh.steps run) =
        .ok (store.rows e).length (fresh.steps run)) ∧
      ∀ id,
        ((∃ b ∈ store.batches.rows, b.id = id) → ∃ v, store.viewBatch id = .ok v ∧
          performShowBatch id (fresh.steps run) = .ok ⟨v.toJson, v.text⟩ (fresh.steps run)) ∧
        ((∀ b ∈ store.batches.rows, b.id ≠ id) →
          performShowBatch id (fresh.steps run) =
            .error ⟨.notFound .batch id, []⟩ (fresh.steps run)) := by
  obtain ⟨-, store, htables, -⟩ := (coherent_steps run).image
  have hsound := sound_steps hrun htables
  refine ⟨store, htables, query_get hsound htables, query_listing hsound htables, ?_, ?_, ?_, ?_,
    performShowBatch_cases hsound htables⟩
  · intro username
    obtain ⟨found, hfind, hfound⟩ := hsound.findUser?_ok username
    exact ⟨found, by rw [query_eq htables, hfind], hfound⟩
  · intro name
    obtain ⟨found, hfind, hfound⟩ := hsound.findArch?_ok name
    exact ⟨found, by rw [query_eq htables, hfind], hfound⟩
  · intro hostname
    obtain ⟨found, hfind, hfound⟩ := hsound.findHost?_ok hostname
    exact ⟨found, by rw [query_eq htables, hfind], hfound⟩
  · intro e
    rw [query_eq htables]
    rfl

/-- A directory with the ledger that `Session.recordedRun` leaves. -/
def recordedShelf : Directory := fun place =>
  if place = {} then .directory
  else if place.names = ["fuzzermon.sqlite3"] then
    .file (.database (Session.fresh.steps Session.recordedRun).close)
  else .nothing

/-- Shows a batch. -/
def showBatch (id : Int) : Invocation := { command := .showBatch id }

/-- After a report was recorded, its host can be read and no other, its one success is listed, and
its batch can be shown and no other, also by runs on the file of the ledger. -/
theorem Session.reads_of_recordedRun :
    query .host (·.get .host 1) (fresh.steps recordedRun) =
      .ok ⟨1, "tester", 1⟩ (fresh.steps recordedRun) ∧
    query .host (·.get .host 2) (fresh.steps recordedRun) =
      .error ⟨.notFound .host 2, []⟩ (fresh.steps recordedRun) ∧
    (∃ items, query .testSuccess (·.successesForBatch 1) (fresh.steps recordedRun) =
      .ok items (fresh.steps recordedRun)) ∧
    (∃ v : BatchView, performShowBatch 1 (fresh.steps recordedRun) =
      .ok ⟨v.toJson, v.text⟩ (fresh.steps recordedRun)) ∧
    performShowBatch 2 (fresh.steps recordedRun) =
      .error ⟨.notFound .batch 2, []⟩ (fresh.steps recordedRun) ∧
    ((showBatch 1).run recordedShelf (fun _ => .epoch) .ideal).failure = none ∧
    ((showBatch 2).run recordedShelf (fun _ => .epoch) .ideal).failure =
      some ⟨.notFound .batch 2, []⟩ := by
  have hrun : ∀ event ∈ recordedRun, event.isDirect = false := by decide
  obtain ⟨store, htables, hget, hlists, -, -, -, -, hshow⟩ := reads_succeed hrun
  obtain ⟨hhosts, hbatches⟩ : store.hosts.rows = [⟨1, "tester", 1⟩] ∧
      store.batches.rows.map StoredBatch.id = [1] := by
    cases htables
    decide +kernel
  have hone : ∃ b ∈ store.batches.rows, Row.id .batch b = 1 :=
    List.mem_map.1 (hbatches ▸ List.mem_cons_self)
  have hother : ∀ b ∈ store.batches.rows, Row.id .batch b ≠ 2 := fun b hb hid => by
    have hmem : (2 : Int) ∈ store.batches.rows.map StoredBatch.id := List.mem_map.2 ⟨b, hb, hid⟩
    rw [hbatches] at hmem
    exact absurd hmem (by decide)
  obtain ⟨o, hopen, hopened⟩ : ∃ o,
      openDatabase recordedShelf ((showBatch 1).settings recordedShelf) = .ok o ∧
      o.session.image.tables = some store := by
    have heval : (openDatabase recordedShelf
        ((showBatch 1).settings recordedShelf)).toOption.map (·.session.image.tables) =
        some (fresh.steps recordedRun).image.tables := by decide +kernel
    rw [htables] at heval
    cases hopen : openDatabase recordedShelf ((showBatch 1).settings recordedShelf) with
    | ok o =>
      rw [hopen] at heval
      exact ⟨o, rfl, Option.some.inj heval⟩
    | error f =>
      rw [hopen] at heval
      cases heval
  have hsound := sound_steps hrun htables
  refine ⟨?_, ?_, ?_, ?_, (hshow 2).2 hother, ?_, ?_⟩
  · have hmem : (⟨1, "tester", 1⟩ : Host TextCell) ∈ store.hosts.rows := by simp [hhosts]
    obtain ⟨item, hread, hquery⟩ := (hget .host 1).1 _ hmem rfl
    cases hread
    exact hquery
  · refine (hget .host 2).2 fun h hh hid => ?_
    rw [show h = ⟨1, "tester", 1⟩ from List.mem_singleton.1 (hhosts ▸ hh)] at hid
    exact absurd hid (by decide)
  · obtain ⟨_, items, -, -, hquery⟩ := hlists (.successesForBatch 1)
    exact ⟨items, hquery⟩
  · obtain ⟨v, -, hshown⟩ := (hshow 1).1 hone
    exact ⟨v, hshown⟩
  · exact (Invocation.failure_of_showBatch _ .ideal rfl hopen hsound hopened).1 hone rfl
  · exact (Invocation.failure_of_showBatch (i := showBatch 2) _ .ideal rfl hopen hsound
      hopened).2 hother

end FuzzLedger
