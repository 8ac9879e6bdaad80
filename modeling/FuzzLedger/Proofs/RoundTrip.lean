import FuzzLedger.Codec.Report
import FuzzLedger.Proofs.ClockText
import FuzzLedger.Proofs.JsonRecord
import FuzzLedger.Proofs.ReportFormat
import FuzzLedger.Store.Query

/-!
# Decoding undoes encoding

Sixteen kinds of data are written as JSON and read back: reports with their entries and differences,
summaries, the rows of every kind, what callers say of new rows, and the kinds themselves.  `Form`
names them all, with their writers and readers.

`Form.decode_encode` says that the text of a value is read as that value, and that whatever text was
read as a value, the value's own text is read as it again.  The numbers of the ledger are unbounded
here and words in JSON, so the first half is about values whose numbers are words (`Form.InRange`);
a value that was read always is one.

For each kind there is a lemma that its values spell themselves (`Spells`) and, where it has numbers,
one that the reader gives only words.
-/

set_option autoImplicit false

namespace FuzzLedger

open Json

/-! ## Rows -/

theorem spells_timestamp {depth : Nat} (t : Timestamp) :
    Spells (.text t.render) Timestamp.readJson depth t where
  writable := .text _
  reads sorted source room _ := by
    rw [Value.arranged_text, Value.toTree, Timestamp.readJson, t.parse?_render]

namespace Item

/-- Reads a row of a kind. -/
def readJson : (e : Entity) → Reader (Item e)
  | .user => User.readJson
  | .arch => Arch.readJson
  | .host => Host.readJson
  | .batch => Batch.readJson
  | .opcode => Opcode.readJson
  | .testSuccess => TestSuccess.readJson
  | .testFailure => TestFailure.readJson
  | .testFailureState => TestFailureState.readJson

/-- The identifiers in a row: its own and those that it refers to. -/
def ids : (e : Entity) → Item e → List Int
  | .user, u => [User.id u]
  | .arch, a => [Arch.id a]
  | .host, h => [Host.id h, Host.archId h]
  | .batch, b => [Batch.id b, Batch.testingHostId b, Batch.userId b]
  | .opcode, o => [Opcode.id o, Opcode.archId o]
  | .testSuccess, s => [TestSuccess.id s, TestSuccess.batchId s, TestSuccess.opcodeId s]
  | .testFailure, f => [TestFailure.id f, TestFailure.batchId f, TestFailure.opcodeId f]
  | .testFailureState, d => [TestFailureState.id d, TestFailureState.failureId d]

/-- A row spells itself. -/
theorem spells (e : Entity) (x : Item e) (h : ∀ n ∈ ids e x, IsId n) :
    Spells (toJson e x) (readJson e) 1 x := by
  cases e <;> simp only [ids, List.forall_mem_cons] at h
  case user =>
    refine .andThen (x := (x.id, x.username, ())) (spells_record _ ?_ rfl (by decide)) rfl
    exact .cons (spells_id h.1) (.cons (spells_text _) .nil)
  case arch =>
    refine .andThen (x := (x.id, x.name, ())) (spells_record _ ?_ rfl (by decide)) rfl
    exact .cons (spells_id h.1) (.cons (spells_text _) .nil)
  case host =>
    refine .andThen (x := (x.id, x.hostname, x.archId, ()))
      (spells_record _ ?_ rfl (by decide)) rfl
    exact .cons (spells_id h.1) (.cons (spells_text _) (.cons (spells_id h.2.1) .nil))
  case batch =>
    refine .andThen
      (x := (x.id, x.fuzzerHost, x.testingHostId, x.userId, x.submittedAt, ()))
      (spells_record _ ?_ rfl (by decide)) rfl
    exact .cons (spells_id h.1) (.cons (spells_text _) (.cons (spells_id h.2.1)
      (.cons (spells_id h.2.2.1) (.cons (spells_timestamp _) .nil))))
  case opcode =>
    refine .andThen (x := (x.id, x.name, x.archId, ())) (spells_record _ ?_ rfl (by decide)) rfl
    exact .cons (spells_id h.1) (.cons (spells_text _) (.cons (spells_id h.2.1) .nil))
  case testSuccess =>
    refine .andThen (x := (x.id, x.batchId, x.opcodeId, x.count, ()))
      (spells_record _ ?_ rfl (by decide)) rfl
    exact .cons (spells_id h.1) (.cons (spells_id h.2.1) (.cons (spells_id h.2.2.1)
      (.cons (spells_count _) .nil)))
  case testFailure =>
    refine .andThen (x := (x.id, x.batchId, x.opcodeId, x.pretty, x.arguments, ()))
      (spells_record _ ?_ rfl (by decide)) rfl
    exact .cons (spells_id h.1) (.cons (spells_id h.2.1) (.cons (spells_id h.2.2.1)
      (.cons (spells_text _) (.cons (spells_text _) .nil))))
  case testFailureState =>
    refine .andThen (x := (x.id, x.failureId, x.location, x.expected, x.actual, ()))
      (spells_record _ ?_ rfl (by decide)) rfl
    exact .cons (spells_id h.1) (.cons (spells_id h.2.1) (.cons (spells_text _)
      (.cons (spells_text _) (.cons (spells_text _) .nil))))

/-- A row that was read has identifiers of 64 bits. -/
theorem isId_of_readJson (e : Entity) {source : Source} {room : Nat} {t : Tree} {x : Item e}
    (h : readJson e source room t = .ok x) : ∀ n ∈ ids e x, IsId n := by
  cases e
  case user | arch =>
    obtain ⟨values, hread, hx⟩ := bind_ok h
    obtain ⟨hid, -⟩ := yielded_of_readRecord hread
    cases hx
    exact List.forall_mem_singleton.2 hid.isId
  case host | opcode =>
    obtain ⟨values, hread, hx⟩ := bind_ok h
    obtain ⟨hid, -, harch, -⟩ := yielded_of_readRecord hread
    cases hx
    exact List.forall_mem_cons.2 ⟨hid.isId, List.forall_mem_singleton.2 harch.isId⟩
  case batch =>
    obtain ⟨values, hread, hx⟩ := bind_ok h
    obtain ⟨hid, -, hhost, huser, -⟩ := yielded_of_readRecord hread
    cases hx
    exact List.forall_mem_cons.2 ⟨hid.isId, List.forall_mem_cons.2
      ⟨hhost.isId, List.forall_mem_singleton.2 huser.isId⟩⟩
  case testSuccess | testFailure =>
    obtain ⟨values, hread, hx⟩ := bind_ok h
    obtain ⟨hid, hbatch, hopcode, -⟩ := yielded_of_readRecord hread
    cases hx
    exact List.forall_mem_cons.2 ⟨hid.isId, List.forall_mem_cons.2
      ⟨hbatch.isId, List.forall_mem_singleton.2 hopcode.isId⟩⟩
  case testFailureState =>
    obtain ⟨values, hread, hx⟩ := bind_ok h
    obtain ⟨hid, hfailure, -⟩ := yielded_of_readRecord hread
    cases hx
    exact List.forall_mem_cons.2 ⟨hid.isId, List.forall_mem_singleton.2 hfailure.isId⟩

end Item

/-! ## Reports -/

theorem StateDiff.spells (d : StateDiff) : Spells d.toJson StateDiff.readJson 1 d := by
  refine .andThen (x := (d.location, d.expected, d.actual, ()))
    (spells_record _ ?_ rfl (by decide)) rfl
  exact .cons (spells_text _) (.cons (spells_text _) (.cons (spells_text _) .nil))

namespace Entry

/-- The kind is found wherever its key stands, and all other members are kept. -/
theorem splitMembers_membersTree {room : Nat} {name : Value} {kind : Kind}
    {members : List (String × Value)} (hkeys : (members.map Prod.fst).Nodup)
    (hname : (kindKey, name) ∈ members) (hkind : readKind name.toTree = .ok kind)
    (hstop : ∀ m ∈ members, m.2.toTree.readStop room = none) :
    splitMembers room none (Value.membersTree members) =
      .ok (some kind, Value.membersTree (members.filter fun m => m.1 ≠ kindKey)) := by
  rw [← Value.membersTree_membersData, ← Value.membersTree_membersData]
  refine splitMembers_ok_iff.2 ⟨?_, ?_, ?_⟩
  · rw [← Value.toTree_toDatum] at hkind
    rw [under_membersData hkeys hname, readKind_ok_iff.1 hkind]
    rfl
  · intro m hm _
    rw [Value.membersData_eq_map, List.map_map] at hm
    obtain ⟨n, hn, rfl⟩ := List.mem_map.1 hm
    exact (congrArg (Tree.readStop room) (Value.toTree_toDatum n.2)).trans (hstop n hn)
  · rw [Value.membersData_eq_map, Value.membersData_eq_map, List.filter_map, List.filter_map]
    rfl

/-- An object with a kind and the fields of that kind spells an entry. -/
theorem spells_of_fields (kind : Kind) {depth : Nat} {name what : String}
    {members : List (String × Value)} {fields : List Field} (xs : Values fields) {entry : Entry}
    {make : Values fields → Result Entry} (hkind : readKind (.text (some name)) = .ok kind)
    (hread : ∀ room t, readFields room kind t = readRecord what fields .buffered room t >>= make)
    (hmake : make xs = .ok entry) (hspelled : Spelled depth members fields xs)
    (hkeys : members.map Prod.fst = fields.map Field.key)
    (hfields : (kindKey :: fields.map Field.key).Nodup) :
    Spells (.obj ((kindKey, .text name) :: members)) readJson (depth + 1) entry := by
  obtain ⟨hkindKey, hnodup⟩ := List.nodup_cons.1 hfields
  have hwritable : ∀ m ∈ (kindKey, Value.text name) :: members, Writable depth m.2 := by
    refine List.forall_mem_cons.2 ⟨.text name, fun m hm => ?_⟩
    exact hspelled.writable (hkeys ▸ hnodup) hm (hkeys ▸ List.mem_map_of_mem hm)
  refine ⟨.obj hwritable, fun sorted source room hroom => ?_⟩
  obtain ⟨room, rfl⟩ : ∃ n, room = n + 1 := ⟨room - 1, by omega⟩
  obtain ⟨members', heq, hperm⟩ := Value.arranged_obj sorted ((kindKey, .text name) :: members)
  have hwritable' : ∀ m ∈ members', Writable depth m.2 := by
    intro m hm
    obtain ⟨n, hn, rfl⟩ := List.mem_map.1 (hperm.mem_iff.1 hm)
    exact (hwritable n hn).arranged sorted
  have hkeys' : (members'.map Prod.fst).Nodup := by
    rw [(keys_of_perm hperm).nodup_iff, List.map_cons, hkeys]
    exact hfields
  have hname : (kindKey, Value.text name) ∈ members' := by
    have hmem := List.mem_map_of_mem (f := fun m : String × Value => (m.1, m.2.arranged sorted))
      (List.mem_cons_self (a := (kindKey, Value.text name)) (l := members))
    rw [Value.arranged_text] at hmem
    exact hperm.mem_iff.2 hmem
  have hstop : ∀ m ∈ members', m.2.toTree.readStop room = none :=
    fun m hm => (hwritable' m hm).readStop_toTree room (by omega)
  have hsplit := splitMembers_membersTree hkeys' hname hkind hstop
  have hfilled : Filled .buffered room (members'.filter fun m => m.1 ≠ kindKey) fields xs := by
    refine hspelled.filled sorted (fun m hm hfield => ?_) .buffered (by omega)
    refine List.mem_filter.2 ⟨hperm.mem_iff.2 (List.mem_map.2 ⟨m, .tail _ hm, rfl⟩), ?_⟩
    rw [decide_eq_true_iff]
    exact fun heq => hkindKey (heq ▸ hfield)
  have hrecord := readRecord_membersTree what (hkeys'.sublist (List.filter_sublist.map _)) hfilled
    hnodup
  rw [heq, Value.toTree]
  show (splitMembers room none (Value.membersTree members') >>= fun split => _) = _
  rw [hsplit]
  show readFields (room + 1) kind _ = _
  rw [hread, hrecord]
  exact hmake

theorem spells (entry : Entry) : Spells entry.toJson readJson 3 entry := by
  cases entry with
  | success opcode count =>
    have hfields : Spelled 0 [("opcode", .text opcode), ("count", .int count.toInt)]
        [textField "opcode", countField "count"] (opcode, count, ()) :=
      .cons (spells_text _) (.cons (spells_count _) .nil)
    have hentry : Spells (toJson (.success opcode count)) readJson 1 (.success opcode count) :=
      spells_of_fields .success _ rfl (fun _ _ => rfl) rfl hfields rfl (by decide)
    exact hentry.mono (by omega)
  | failure opcode pretty arguments state =>
    have hstate := spells_list (f := id) fun d (_ : d ∈ state) => d.spells
    rw [List.map_id] at hstate
    refine spells_of_fields .failure (opcode, pretty, arguments, state, ()) rfl (fun _ _ => rfl) rfl
      ?_ rfl (by decide)
    exact .cons (spells_text _) (.cons (spells_text _) (.cons (spells_text _)
      (.cons hstate .nil)))

end Entry

theorem Report.spells (r : Report) : Spells r.toJson Report.readJson 5 r := by
  have hentries := spells_list (f := id) fun entry (_ : entry ∈ r.entries) => entry.spells
  rw [List.map_id] at hentries
  refine .andThen (x := (r.fuzzingHost, r.testingHost, r.user, r.arch, r.entries, ()))
    (spells_record _ ?_ rfl (by decide)) rfl
  exact .cons (spells_text _) (.cons (spells_text _) (.cons (spells_text _)
    (.cons (spells_text _) (.cons hentries .nil))))

/-! ## Summaries, new rows and kinds -/

/-- The numbers of a summary have 64 bits. -/
def Summary.InRange (s : Summary) : Prop :=
  IsId s.batchId ∧ s.successes < UInt64.size ∧ s.failures < UInt64.size ∧ s.states < UInt64.size

theorem Summary.spells {s : Summary} (h : s.InRange) : Spells s.toJson Summary.readJson 1 s := by
  obtain ⟨hbatch, hsuccesses, hfailures, hstates⟩ := h
  refine .andThen (x := (s.batchId, s.successes, s.failures, s.states, ()))
    (spells_record _ ?_ rfl (by decide)) rfl
  exact .cons (spells_id hbatch) (.cons (spells_size hsuccesses) (.cons (spells_size hfailures)
    (.cons (spells_size hstates) .nil)))

theorem Summary.inRange_of_readJson {source : Source} {room : Nat} {t : Tree} {s : Summary}
    (h : Summary.readJson source room t = .ok s) : s.InRange := by
  obtain ⟨values, hread, hs⟩ := bind_ok h
  obtain ⟨hbatch, hsuccesses, hfailures, hstates, -⟩ := yielded_of_readRecord hread
  cases hs
  exact ⟨hbatch.isId, hsuccesses.lt_size, hfailures.lt_size, hstates.lt_size⟩

/-- The identifiers that a new batch refers to have 64 bits. -/
def NewBatch.InRange (b : NewBatch) : Prop := IsId b.testingHostId ∧ IsId b.userId

theorem NewBatch.spells {b : NewBatch} (h : b.InRange) :
    Spells b.toJson NewBatch.readJson 1 b := by
  refine .andThen (x := (b.fuzzerHost, b.testingHostId, b.userId, ()))
    (spells_record _ ?_ rfl (by decide)) rfl
  exact .cons (spells_text _) (.cons (spells_id h.1) (.cons (spells_id h.2) .nil))

theorem NewBatch.inRange_of_readJson {source : Source} {room : Nat} {t : Tree} {b : NewBatch}
    (h : NewBatch.readJson source room t = .ok b) : b.InRange := by
  obtain ⟨values, hread, hb⟩ := bind_ok h
  obtain ⟨-, hhost, huser, -⟩ := yielded_of_readRecord hread
  cases hb
  exact ⟨hhost.isId, huser.isId⟩

/-- The identifiers that a new failure refers to have 64 bits. -/
def NewTestFailure.InRange (f : NewTestFailure) : Prop := IsId f.batchId ∧ IsId f.opcodeId

theorem NewTestFailure.spells {f : NewTestFailure} (h : f.InRange) :
    Spells f.toJson NewTestFailure.readJson 1 f := by
  refine .andThen (x := (f.batchId, f.opcodeId, f.pretty, f.arguments, ()))
    (spells_record _ ?_ rfl (by decide)) rfl
  exact .cons (spells_id h.1) (.cons (spells_id h.2) (.cons (spells_text _)
    (.cons (spells_text _) .nil)))

theorem NewTestFailure.inRange_of_readJson {source : Source} {room : Nat} {t : Tree}
    {f : NewTestFailure} (h : NewTestFailure.readJson source room t = .ok f) : f.InRange := by
  obtain ⟨values, hread, hf⟩ := bind_ok h
  obtain ⟨hbatch, hopcode, -⟩ := yielded_of_readRecord hread
  cases hf
  exact ⟨hbatch.isId, hopcode.isId⟩

/-- The identifier that a new state refers to has 64 bits. -/
def NewTestFailureState.InRange (d : NewTestFailureState) : Prop := IsId d.failureId

theorem NewTestFailureState.spells {d : NewTestFailureState} (h : d.InRange) :
    Spells d.toJson NewTestFailureState.readJson 1 d := by
  refine .andThen (x := (d.failureId, d.location, d.expected, d.actual, ()))
    (spells_record _ ?_ rfl (by decide)) rfl
  exact .cons (spells_id h) (.cons (spells_text _) (.cons (spells_text _)
    (.cons (spells_text _) .nil)))

theorem NewTestFailureState.inRange_of_readJson {source : Source} {room : Nat} {t : Tree}
    {d : NewTestFailureState} (h : NewTestFailureState.readJson source room t = .ok d) :
    d.InRange := by
  obtain ⟨values, hread, hd⟩ := bind_ok h
  obtain ⟨hfailure, -⟩ := yielded_of_readRecord hread
  cases hd
  exact hfailure.isId

theorem Entity.spells {depth : Nat} (e : Entity) : Spells e.toJson Entity.readJson depth e where
  writable := .text _
  reads sorted source room _ := by
    rw [Entity.toJson, Value.arranged_text, Value.toTree]
    simp only [Entity.readJson, Entity.ofVariant, Entity.ofName?_name]

/-! ## Every form -/

/-- The kinds of data that are written and read as JSON. -/
inductive Form where
  | report
  | entry
  | stateDiff
  | summary
  | row (e : Entity)
  | newBatch
  | newTestFailure
  | newTestFailureState
  | entity
  deriving DecidableEq, Repr

namespace Form

/-- The values of a form. -/
@[reducible] def Carrier : Form → Type
  | report => Report
  | entry => Entry
  | stateDiff => StateDiff
  | summary => Summary
  | row e => Item e
  | newBatch => NewBatch
  | newTestFailure => NewTestFailure
  | newTestFailureState => NewTestFailureState
  | entity => Entity

/-- The writer of a form. -/
def toJson : (form : Form) → form.Carrier → Value
  | report => Report.toJson
  | entry => Entry.toJson
  | stateDiff => StateDiff.toJson
  | summary => Summary.toJson
  | row e => Item.toJson e
  | newBatch => NewBatch.toJson
  | newTestFailure => NewTestFailure.toJson
  | newTestFailureState => NewTestFailureState.toJson
  | entity => Entity.toJson

/-- The reader of a form. -/
def read : (form : Form) → Reader form.Carrier
  | report => Report.readJson
  | entry => Entry.readJson
  | stateDiff => StateDiff.readJson
  | summary => Summary.readJson
  | row e => Item.readJson e
  | newBatch => NewBatch.readJson
  | newTestFailure => NewTestFailure.readJson
  | newTestFailureState => NewTestFailureState.readJson
  | entity => Entity.readJson

/-- Every number of the value is a word: identifiers are signed ones, counts of rows unsigned. -/
def InRange : (form : Form) → form.Carrier → Prop
  | report, _ => True
  | entry, _ => True
  | stateDiff, _ => True
  | summary, s => Summary.InRange s
  | row e, x => ∀ n ∈ Item.ids e x, IsId n
  | newBatch, b => NewBatch.InRange b
  | newTestFailure, f => NewTestFailure.InRange f
  | newTestFailureState, d => NewTestFailureState.InRange d
  | entity, _ => True

/-- Reports nest deepest. -/
def levels : Nat := 5

theorem spells (form : Form) {x : form.Carrier} (h : form.InRange x) :
    Spells (form.toJson x) form.read levels x := by
  cases form with
  | report => exact Report.spells x
  | entry => exact (Entry.spells x).mono (by decide)
  | stateDiff => exact (StateDiff.spells x).mono (by decide)
  | summary => exact (Summary.spells h).mono (by decide)
  | row e => exact (Item.spells e x h).mono (by decide)
  | newBatch => exact (NewBatch.spells h).mono (by decide)
  | newTestFailure => exact (NewTestFailure.spells h).mono (by decide)
  | newTestFailureState => exact (NewTestFailureState.spells h).mono (by decide)
  | entity => exact Entity.spells x

theorem inRange_of_read (form : Form) {source : Source} {room : Nat} {t : Tree} {x : form.Carrier}
    (h : form.read source room t = .ok x) : form.InRange x := by
  cases form with
  | report => trivial
  | entry => trivial
  | stateDiff => trivial
  | summary => exact Summary.inRange_of_readJson h
  | row e => exact Item.isId_of_readJson e h
  | newBatch => exact NewBatch.inRange_of_readJson h
  | newTestFailure => exact NewTestFailure.inRange_of_readJson h
  | newTestFailureState => exact NewTestFailureState.inRange_of_readJson h
  | entity => trivial

theorem read_of_readDocument {α : Type} {read : Reader α} {text : String} {x : α}
    (h : readDocument read text = .ok x) :
    read .text maxLevels (Document.ofText text).root = .ok x := by
  obtain ⟨y, hy, h⟩ := bind_ok h
  split at h
  · cases h
  · cases h
    exact hy

/-- **Decoding undoes encoding.**  The text of a value is read as that value; and a text that is
read as a value may be replaced by the text of that value. -/
theorem decode_encode (form : Form) :
    (∀ x, form.InRange x → readDocument form.read (form.toJson x).render = .ok x) ∧
      ∀ text x, readDocument form.read text = .ok x →
        readDocument form.read (form.toJson x).render = .ok x := by
  have hround : ∀ x, form.InRange x → readDocument form.read (form.toJson x).render = .ok x :=
    fun x hx => (form.spells hx).readDocument_render (by decide) false
  refine ⟨hround, fun text x hx => hround x ?_⟩
  exact form.inRange_of_read (read_of_readDocument hx)

/-- A batch with the smallest and the largest identifier, a host that needs every kind of escape and
a time with a short fraction and an offset. -/
def oddBatch : Batch where
  id := Int64.minValue.toInt
  fuzzerHost := "\"\\\n\x01𝄞"
  testingHostId := Int64.maxValue.toInt
  userId := -1
  submittedAt :=
    { year := 0, month := 2, day := 29, hour := 23, minute := 59, second := 59,
      nanosecond := 120000000, offset := -330, inCalendar := by decide }

/-- An entry with blanks, its kind in the middle, a member nobody asks for and no differences. -/
def looseEntry : String :=
  " \x7b\"pretty\": \"p\", \"extra\": [1.5e3, null], \"type\": \"failure\", \"opcode\": \"\\u00e9\", " ++
    "\"raw-operands\": \"\"\x7d "

theorem decode_encode_odd :
    (row .batch).InRange oddBatch ∧
      readDocument (row .batch).read ((row .batch).toJson oddBatch).render = .ok oddBatch ∧
      readDocument entry.read looseEntry = .ok (.failure "é" "p" "" []) ∧
      readDocument entry.read (entry.toJson (.failure "é" "p" "" [])).render =
        .ok (.failure "é" "p" "" []) := by
  have hrange : (row .batch).InRange oddBatch :=
    List.forall_mem_cons.2 ⟨by decide, List.forall_mem_cons.2
      ⟨by decide, List.forall_mem_singleton.2 (by decide)⟩⟩
  have hloose : readDocument entry.read looseEntry = .ok (.failure "é" "p" "" []) := by decide +kernel
  exact ⟨hrange, (decode_encode (row .batch)).1 oddBatch hrange, hloose,
    (decode_encode entry).2 looseEntry _ hloose⟩

end Form

end FuzzLedger
