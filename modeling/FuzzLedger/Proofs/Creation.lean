import FuzzLedger.Proofs.ReadBack
import FuzzLedger.Proofs.Contract

/-!
# Creating a row

The eight operations that create a row keep to one contract.  `NewRow` is what a caller says of the
row, `NewRow.create` the operation, and `NewRow.Refused` the reasons for which the row is refused,
in their order: a text that is too long, a name that exists, a reference to a row that does not.

* `action_eq_checking` — the operations differ in what they check and insert, and in nothing else.
* `violation?_row` — of the rules that the tables check by themselves, names and references remain:
  a text that passed the check of the operation fits its column, and no row has the next identifier.
* `Store.Gains` — what an accepted row does to the tables, and how it is read.
* `create_contract` — an operation fails for the first reason there is and changes nothing, or it
  adds the row.
-/

set_option autoImplicit false

namespace FuzzLedger

/-! ## New rows of any kind -/

/-- What a caller says of a new row; a batch also has the time at which it is submitted. -/
inductive NewRow where
  | user (username : String)
  | arch (name : String)
  | host (hostname : String) (archId : Int)
  | opcode (name : String) (archId : Int)
  | batch (now : Stamp) (b : NewBatch)
  | testSuccess (batchId opcodeId : Int) (count : Int32)
  | testFailure (f : NewTestFailure)
  | testFailureState (d : NewTestFailureState)

/-- A text with a limit as it is stored. -/
def BoundedText.stored (b : BoundedText) : BoundedText TextCell := ⟨b.column, b.limit, b.text⟩

theorem BoundedText.fits_stored_iff {texts : List BoundedText} :
    (∀ b ∈ texts.map BoundedText.stored, b.text.Fits b.limit) ↔
      ∀ b ∈ texts, b.text.length ≤ b.limit := by
  simp [BoundedText.stored]

namespace NewRow

/-- The kind of the row. -/
def kind : NewRow → Entity
  | .user _ => .user
  | .arch _ => .arch
  | .host .. => .host
  | .opcode .. => .opcode
  | .batch .. => .batch
  | .testSuccess .. => .testSuccess
  | .testFailure _ => .testFailure
  | .testFailureState _ => .testFailureState

/-- The texts that have a limit, in the order of declaration. -/
def texts : NewRow → List BoundedText
  | .user username => [⟨"username", Limit.username, username⟩]
  | .arch name => [⟨"name", Limit.archName, name⟩]
  | .host hostname _ => [⟨"hostname", Limit.hostname, hostname⟩]
  | .opcode name _ => [⟨"name", Limit.opcodeName, name⟩]
  | .batch _ b => [⟨"fuzzer_host", Limit.fuzzerHost, b.fuzzerHost⟩]
  | .testSuccess .. => []
  | .testFailure f => [⟨"pretty", Limit.failurePretty, f.pretty⟩]
  | .testFailureState d =>
    [⟨"location", Limit.stateLocation, d.location⟩,
     ⟨"expected_value", Limit.stateValue, d.expected⟩,
     ⟨"actual_value", Limit.stateValue, d.actual⟩]

/-- The column in which no two rows have the same, and what is to stand in it. -/
def name? : NewRow → Option (String × String)
  | .user username => some ("users.username", username)
  | .arch name => some ("arches.name", name)
  | .host hostname _ => some ("hosts.hostname", hostname)
  | _ => none

/-- The rows that the new one refers to. -/
def references : NewRow → List RowRef
  | .user _ => []
  | .arch _ => []
  | .host _ archId => [(.arch, archId)]
  | .opcode _ archId => [(.arch, archId)]
  | .batch _ b => [(.host, b.testingHostId), (.user, b.userId)]
  | .testSuccess batchId opcodeId _ => [(.batch, batchId), (.opcode, opcodeId)]
  | .testFailure f => [(.batch, f.batchId), (.opcode, f.opcodeId)]
  | .testFailureState d => [(.testFailure, d.failureId)]

/-- The row under an identifier, as it is stored. -/
def row : (n : NewRow) → Int → Row n.kind
  | .user username, id => (⟨id, username⟩ : User TextCell)
  | .arch name, id => (⟨id, name⟩ : Arch TextCell)
  | .host hostname archId, id => (⟨id, hostname, archId⟩ : Host TextCell)
  | .opcode name archId, id => (⟨id, name, archId⟩ : Opcode TextCell)
  | .batch now b, id =>
    (⟨id, b.fuzzerHost, b.testingHostId, b.userId, now.text⟩ : StoredBatch)
  | .testSuccess batchId opcodeId count, id =>
    (⟨id, batchId, opcodeId, .int count.toInt⟩ : StoredSuccess)
  | .testFailure f, id =>
    (⟨id, f.batchId, f.opcodeId, f.pretty, f.arguments⟩ : TestFailure TextCell)
  | .testFailureState d, id =>
    (⟨id, d.failureId, d.location, d.expected, d.actual⟩ : TestFailureState TextCell)

/-- The row under an identifier, as it is answered. -/
def item : (n : NewRow) → Int → Item n.kind
  | .user username, id => (⟨id, username⟩ : User)
  | .arch name, id => (⟨id, name⟩ : Arch)
  | .host hostname archId, id => (⟨id, hostname, archId⟩ : Host)
  | .opcode name archId, id => (⟨id, name, archId⟩ : Opcode)
  | .batch now b, id => (⟨id, b.fuzzerHost, b.testingHostId, b.userId, now.time⟩ : Batch)
  | .testSuccess batchId opcodeId count, id => (⟨id, batchId, opcodeId, count⟩ : TestSuccess)
  | .testFailure f, id => (⟨id, f.batchId, f.opcodeId, f.pretty, f.arguments⟩ : TestFailure)
  | .testFailureState d, id =>
    (⟨id, d.failureId, d.location, d.expected, d.actual⟩ : TestFailureState)

/-- The operation on the tables that creates the row. -/
def action : (n : NewRow) → Action (Item n.kind)
  | .user username => Action.createUser username
  | .arch name => Action.createArch name
  | .host hostname archId => Action.createHost hostname archId
  | .opcode name archId => Action.createOpcode name archId
  | .batch now b => Action.createBatch now b
  | .testSuccess batchId opcodeId count => Action.addTestSuccess batchId opcodeId count
  | .testFailure f => Action.addTestFailure f
  | .testFailureState d => Action.addTestFailureState d

/-- The operation on a session that creates the row. -/
def create : (n : NewRow) → Call (Item n.kind)
  | .user username => Session.createUser username
  | .arch name => Session.createArch name
  | .host hostname archId => Session.createHost hostname archId
  | .opcode name archId => Session.createOpcode name archId
  | .batch now b => Session.createBatch now b
  | .testSuccess batchId opcodeId count => Session.addTestSuccess batchId opcodeId count
  | .testFailure f => Session.addTestFailure f
  | .testFailureState d => Session.addTestFailureState d

/-! ## Reasons to refuse a row -/

/-- The first text that is longer than its limit. -/
def tooLong? (n : NewRow) : Option TooLong :=
  (n.texts.find? fun b => b.limit < b.text.length).map fun b => ⟨b.column, b.text.length, b.limit⟩

/-- A row has what is to stand in the given column, which no two rows may share. -/
def NameTaken (n : NewRow) (s : Store) (column : String) : Prop :=
  ∃ name, n.name? = some (column, name) ∧
    ∃ r ∈ s.rows n.kind, Row.uniqueName? n.kind r = some (.text name)

/-- Why the new row is refused.  A reason counts only where there is none before it. -/
inductive Refused (n : NewRow) (s : Store) : Fault → Prop where
  | tooLong {t : TooLong} : n.tooLong? = some t → Refused n s (.tooLong t)
  | duplicate {column : String} :
      n.tooLong? = none → n.NameTaken s column → Refused n s (.duplicate column)
  | missingReference {ref : RowRef} :
      n.tooLong? = none → (∀ column, ¬ n.NameTaken s column) → ref ∈ n.references →
      s.has ref = false → Refused n s .missingReference

variable {n : NewRow} {s : Store} {id : Int}

theorem id_row (n : NewRow) (id : Int) : Row.id n.kind (n.row id) = id := by
  cases n <;> rfl

theorem boundedTexts_row (n : NewRow) (id : Int) :
    Row.boundedTexts n.kind (n.row id) = n.texts.map BoundedText.stored := by
  cases n <;> rfl

theorem references_row (n : NewRow) (id : Int) :
    Row.references n.kind (n.row id) = n.references := by
  cases n <;> rfl

theorem uniqueName?_row (n : NewRow) (id : Int) :
    Row.uniqueName? n.kind (n.row id) = n.name?.map fun p => .text p.2 := by
  cases n <;> rfl

theorem read_row (n : NewRow) (id : Int) : Row.read n.kind (n.row id) = .ok (n.item id) := by
  cases n with
  | batch now b => exact StoredBatch.read_stamped id b.testingHostId b.userId b.fuzzerHost now
  | testSuccess batchId opcodeId count =>
    exact TestSuccess.read_stored ⟨id, batchId, opcodeId, count⟩
  | _ => rfl

/-- The column that is named when a name exists already. -/
theorem ofViolation_sameName {column name : String} (h : n.name? = some (column, name)) :
    Failure.ofViolation (.sameName n.kind) = ⟨.duplicate column, []⟩ := by
  cases n <;> cases h <;> simp only [kind] <;> decide

theorem tooLong?_eq_none_iff :
    n.tooLong? = none ↔ ∀ b ∈ n.texts, b.text.length ≤ b.limit := by
  rw [tooLong?, Option.map_eq_none_iff, List.find?_eq_none]
  refine forall₂_congr fun b _ => ?_
  rw [decide_eq_true_eq, Nat.not_lt]

theorem nameTaken_row_iff :
    s.nameTaken n.kind (n.row id) = true ↔ ∃ column, n.NameTaken s column := by
  rw [← Bool.not_eq_false, Store.nameTaken_eq_false_iff, uniqueName?_row]
  constructor
  · intro h
    push Not at h
    obtain ⟨name, hname, r, hr, hrname⟩ := h
    obtain ⟨⟨column, name'⟩, hn, rfl⟩ := Option.map_eq_some_iff.1 hname
    exact ⟨column, name', hn, r, hr, hrname⟩
  · rintro ⟨column, name, hn, r, hr, hrname⟩ hfree
    exact hfree name (by rw [hn]; rfl) r hr hrname

end NewRow

/-! ## The operations on the tables -/

namespace Action

variable {α : Type}

/-- Checks texts in order and then goes on. -/
def checking (a : Action α) : List BoundedText → Action α
  | [] => a
  | b :: texts => do
    checkLength b.column b.text b.limit
    checking a texts

/-- The first text that is too long stops it. -/
theorem checking_eq (a : Action α) (s : Store) : ∀ texts : List BoundedText,
    checking a texts s =
      match texts.find? fun b => b.limit < b.text.length with
      | some b => .error ⟨.tooLong ⟨b.column, b.text.length, b.limit⟩, []⟩ s
      | none => a s
  | [] => rfl
  | b :: texts => by
    by_cases hlong : b.limit < b.text.length
    · rw [List.find?_cons_of_pos (by simpa using hlong), checking, checkLength,
        Limit.check_eq_error hlong]
      rfl
    · rw [List.find?_cons_of_neg (by simpa using hlong), checking, checkLength,
        Limit.check_eq_ok_iff.2 (by omega)]
      exact checking_eq a s texts

end Action

namespace NewRow

variable {n : NewRow} {s : Store} {id : Int}

/-- Inserts the row under the next identifier, and answers it. -/
def insertion (n : NewRow) : Action (Item n.kind) := do
  let r ← Action.insertNew n.kind n.row
  return n.item (Row.id n.kind r)

/-- **The operations differ in what they check and insert only.** -/
theorem action_eq_checking (n : NewRow) : n.action = Action.checking n.insertion n.texts := by
  cases n <;> rfl

theorem insertion_eq (n : NewRow) (s : Store) :
    n.insertion s =
      match s.nextId? n.kind with
      | none => .error (.ofViolation .full) s
      | some id =>
        match s.violation? n.kind (n.row id) with
        | some v => .error (.ofViolation v) s
        | none => .ok (n.item id) (s.add n.kind (n.row id)) := by
  simp only [insertion, Bind.bind, EStateM.bind, Action.insertNew_eq]
  cases s.nextId? n.kind with
  | none => rfl
  | some id =>
    simp only
    cases s.violation? n.kind (n.row id) with
    | none => simp only [Pure.pure, EStateM.pure, id_row]
    | some v => rfl

/-- A text that is too long is found before anything else. -/
theorem action_of_tooLong {t : TooLong} (h : n.tooLong? = some t) (s : Store) :
    n.action s = .error ⟨.tooLong t, []⟩ s := by
  obtain ⟨b, hb, rfl⟩ := Option.map_eq_some_iff.1 h
  rw [action_eq_checking, Action.checking_eq, hb]

/-- Otherwise it is the tables that accept or refuse the row. -/
theorem action_of_fits (h : n.tooLong? = none) (hnext : s.nextId? n.kind = some id) :
    n.action s =
      match s.violation? n.kind (n.row id) with
      | some v => .error (.ofViolation v) s
      | none => .ok (n.item id) (s.add n.kind (n.row id)) := by
  rw [tooLong?, Option.map_eq_none_iff] at h
  rw [action_eq_checking, Action.checking_eq, h]
  simp only [insertion_eq, hnext]

/-! ## What the tables check -/

/-- **What the tables refuse**: with texts that fit, a row under the next identifier is refused for
its name or else for a reference. -/
theorem violation?_row (hs : s.Coherent) (h : n.tooLong? = none)
    (hnext : s.nextId? n.kind = some id) :
    s.violation? n.kind (n.row id) =
      if s.nameTaken n.kind (n.row id) then some (.sameName n.kind)
      else if n.references.all s.has then none
      else some .danglingReference := by
  have hfits : Store.overLong? n.kind (n.row id) = none := by
    refine Store.overLong?_eq_none ?_
    rw [boundedTexts_row]
    exact BoundedText.fits_stored_iff.2 (tooLong?_eq_none_iff.1 h)
  have hfree : s.has (n.kind, Row.id n.kind (n.row id)) = false := by
    rw [id_row]
    exact hs.has_nextId hnext
  rw [Store.violation?, hfits, references_row]
  simp only [hfree, Bool.false_eq_true, if_false]

/-- A refused row leaves the tables as they are. -/
theorem action_of_refused (hs : s.Coherent) (hnext : s.nextId? n.kind = some id) {fault : Fault}
    (h : n.Refused s fault) : n.action s = .error ⟨fault, []⟩ s := by
  cases h with
  | tooLong hlong => exact action_of_tooLong hlong s
  | @duplicate column hfits htaken =>
    have hname : s.nameTaken n.kind (n.row id) = true := nameTaken_row_iff.2 ⟨column, htaken⟩
    obtain ⟨name, hcolumn, -⟩ := htaken
    rw [action_of_fits hfits hnext, violation?_row hs hfits hnext, if_pos hname]
    simp only [ofViolation_sameName hcolumn]
  | @missingReference ref hfits hfree href hmissing =>
    have hname : ¬ s.nameTaken n.kind (n.row id) = true := fun htaken =>
      not_exists.2 hfree (nameTaken_row_iff.1 htaken)
    have hdangling : ¬ n.references.all s.has = true := by
      rw [List.all_eq_true]
      intro hall
      rw [hall ref href] at hmissing
      cases hmissing
    rw [action_of_fits hfits hnext, violation?_row hs hfits hnext, if_neg hname, if_neg hdangling]
    rfl

/-- Where there is no reason to refuse it, the tables have none either. -/
theorem violation?_of_not_refused (hs : s.Coherent) (hnext : s.nextId? n.kind = some id)
    (h : ∀ fault, ¬ n.Refused s fault) :
    n.tooLong? = none ∧ s.violation? n.kind (n.row id) = none := by
  have hfits : n.tooLong? = none := by
    rw [Option.eq_none_iff_forall_not_mem]
    exact fun t ht => h _ (.tooLong ht)
  have hfree (column : String) : ¬ n.NameTaken s column := fun htaken =>
    h _ (.duplicate hfits htaken)
  have hname : ¬ s.nameTaken n.kind (n.row id) = true := fun htaken =>
    not_exists.2 hfree (nameTaken_row_iff.1 htaken)
  have hrefs : n.references.all s.has = true := by
    rw [List.all_eq_true]
    intro ref href
    by_contra hmissing
    exact h _ (.missingReference hfits hfree href (Bool.eq_false_iff.2 hmissing))
  refine ⟨hfits, ?_⟩
  rw [violation?_row hs hfits hnext, if_neg hname, if_pos hrefs]

end NewRow

/-! ## What an accepted row does -/

/-- The tables gain a row under an identifier: it stands at the end of its table, no other table
changes, and it is read as it was answered. -/
structure Store.Gains (n : NewRow) (id : Int) (s t : Store) : Prop where
  rows : t.rows n.kind = s.rows n.kind ++ [n.row id]
  last : (t.table n.kind).last = id
  frame : ∀ e, e ≠ n.kind → t.table e = s.table e
  get : t.get n.kind id = .ok (n.item id)

namespace NewRow

variable {n : NewRow} {s : Store} {id : Int}

theorem action_of_not_refused (hs : s.Coherent) (hnext : s.nextId? n.kind = some id)
    (h : ∀ fault, ¬ n.Refused s fault) :
    ∃ t, n.action s = .ok (n.item id) t ∧ Store.Gains n id s t := by
  obtain ⟨hfits, hok⟩ := violation?_of_not_refused hs hnext h
  have hnext' : s.nextId? n.kind = some (Row.id n.kind (n.row id)) := by rw [id_row, hnext]
  have happ := hs.appended hnext' hok
  have hget := happ.coherent.get_of_mem happ.mem_self
  rw [id_row, read_row] at hget
  have hlast := happ.last_eq
  rw [← happ.id_eq, id_row] at hlast
  refine ⟨s.add n.kind (n.row id), ?_, happ.rows_eq, hlast, happ.frame, hget⟩
  rw [action_of_fits hfits hnext, hok]

end NewRow

/-! ## The operations on a session -/

namespace Session

variable {s : Session} {store store' : Store} {f : Failure}

theorem create_of_ok {n : NewRow} {x : Item n.kind} (htables : s.image.tables = some store)
    (h : n.action store = .ok x store') :
    n.create s = .ok x (s.withTables store') := by
  cases n with
  | batch now b => exact act_of_ok htables h
  | _ => exact write_of_ok htables h

theorem create_of_error {n : NewRow} (htables : s.image.tables = some store)
    (h : n.action store = .error f store) (hfull : f.fault ≠ .engine .full) :
    n.create s = .error f s := by
  cases n with
  | batch now b => exact act_of_error htables h
  | _ => exact write_of_error htables h hfull

/-- **The contract of the operations that create a row.**  Take the tables after any run, with an
identifier left for the row.  A row that is refused leaves the session as it is, and the failure is
the first reason there is: a text that is too long, a name that exists, or a reference to a row that
does not.  The tables have no other reason; in particular they find no text too long.  A row that
is not refused is answered under the next identifier of its table; it is added there and nowhere
else, and reading it gives what was answered. -/
theorem create_contract (run : List Event) (n : NewRow) {store : Store} {id : Int}
    (htables : (fresh.steps run).image.tables = some store)
    (hnext : store.nextId? n.kind = some id) :
    (∀ fault, n.Refused store fault →
      n.create (fresh.steps run) = .error ⟨fault, []⟩ (fresh.steps run)) ∧
    (∀ text f s', n.create (fresh.steps run) = .error f s' → f.fault ≠ .check text) ∧
    ((∀ fault, ¬ n.Refused store fault) →
      ∃ store', store.Gains n id store' ∧
        n.create (fresh.steps run) = .ok (n.item id) ((fresh.steps run).withTables store')) := by
  obtain ⟨-, store₀, htables₀, hcoherent⟩ := (coherent_steps run).image
  rw [htables] at htables₀
  cases htables₀
  have hrefused (fault : Fault) (h : n.Refused store fault) :
      n.create (fresh.steps run) = .error ⟨fault, []⟩ (fresh.steps run) := by
    refine create_of_error htables (NewRow.action_of_refused hcoherent hnext h) ?_
    cases h <;> simp
  have hadded (h : ∀ fault, ¬ n.Refused store fault) :
      ∃ store', store.Gains n id store' ∧
        n.create (fresh.steps run) = .ok (n.item id) ((fresh.steps run).withTables store') := by
    obtain ⟨store', hok, hgains⟩ := NewRow.action_of_not_refused hcoherent hnext h
    exact ⟨store', hgains, create_of_ok htables hok⟩
  refine ⟨hrefused, fun text f s' herror => ?_, hadded⟩
  by_cases h : ∃ fault, n.Refused store fault
  · obtain ⟨fault, h⟩ := h
    rw [hrefused fault h] at herror
    cases herror
    cases h <;> simp
  · obtain ⟨store', -, hok⟩ := hadded (not_exists.1 h)
    rw [hok] at herror
    cases herror

/-- After a report was recorded, a host is refused for its name although its architecture does not
exist either, or for the architecture alone; on a known architecture it is added. -/
theorem create_host_contract :
    ∃ store store', (fresh.steps recordedRun).image.tables = some store ∧
      createHost "tester" 9 (fresh.steps recordedRun) =
        .error ⟨.duplicate "hosts.hostname", []⟩ (fresh.steps recordedRun) ∧
      createHost "other" 9 (fresh.steps recordedRun) =
        .error ⟨.missingReference, []⟩ (fresh.steps recordedRun) ∧
      store.Gains (.host "other" 1) 2 store' ∧
      createHost "other" 1 (fresh.steps recordedRun) =
        .ok ⟨2, "other", 1⟩ ((fresh.steps recordedRun).withTables store') := by
  obtain ⟨store, htables, hhosts, hknown, hunknown, hnext⟩ : ∃ store,
      (fresh.steps recordedRun).image.tables = some store ∧
      store.hosts.rows = [⟨1, "tester", 1⟩] ∧ store.has (.arch, 1) = true ∧
      store.has (.arch, 9) = false ∧ store.nextId? .host = some 2 := ⟨_, rfl, by decide +kernel⟩
  have hnames : ∀ h ∈ store.hosts.rows, h.hostname ≠ "other" := by simp [hhosts]
  have hmem : (⟨1, "tester", 1⟩ : Host TextCell) ∈ store.hosts.rows := by simp [hhosts]
  have hfits : NewRow.tooLong? (.host "other" 1) = none := by decide
  have hfree (archId : Int) (column : String) :
      ¬ NewRow.NameTaken (.host "other" archId) store column := by
    rintro ⟨name, hname, r, hr, hrname⟩
    cases hname
    exact hnames r hr (Option.some.inj hrname)
  have haccepted (fault : Fault) : ¬ NewRow.Refused (.host "other" 1) store fault := by
    rintro (hlong | ⟨-, htaken⟩ | ⟨-, -, href, hmissing⟩)
    · rw [hfits] at hlong
      cases hlong
    · exact hfree 1 _ htaken
    · rw [List.mem_singleton.1 href, hknown] at hmissing
      cases hmissing
  have hname : NewRow.NameTaken (.host "tester" 9) store "hosts.hostname" :=
    ⟨"tester", rfl, _, hmem, rfl⟩
  obtain ⟨store', hgains, hok⟩ :=
    (create_contract recordedRun (.host "other" 1) htables hnext).2.2 haccepted
  refine ⟨store, store', htables, ?_, ?_, hgains, hok⟩
  · exact (create_contract recordedRun (.host "tester" 9) htables hnext).1 _
      (.duplicate (by decide) hname)
  · exact (create_contract recordedRun (.host "other" 9) htables hnext).1 _
      (.missingReference (by decide) (hfree 9) List.mem_cons_self hunknown)

end Session

end FuzzLedger
