import FuzzLedger.Proofs.ClockText
import FuzzLedger.Store.Query

/-!
# What rows are read as

A stored row can hold more than can be read.  For each kind, `read_eq_ok_iff` says which rows are
read as a given item: those whose columns hold its texts and numbers.  A row with texts in all its
text columns is made from an item by `stored`.
-/

set_option autoImplicit false

namespace FuzzLedger

/-! ## Single columns -/

namespace TextCell

/-- The column holds a text of at most so many characters. -/
def Fits (limit : Nat) (cell : TextCell) : Prop := ∃ s : String, cell = s ∧ s.length ≤ limit

@[simp] theorem fits_text {s : String} {limit : Nat} :
    (TextCell.text s).Fits limit ↔ s.length ≤ limit := by
  simp [Fits]

end TextCell

theorem NumberCell.read_int32 (count : Int32) :
    NumberCell.read (.int count.toInt) = .ok count := by
  rw [read, if_pos ⟨count.minValue_le_toInt, count.toInt_le⟩, Int32.ofInt_toInt]

theorem NumberCell.read_eq_ok_iff {cell : NumberCell} {count : Int32} :
    cell.read = .ok count ↔ cell = .int count.toInt := by
  refine ⟨fun h => ?_, fun h => by rw [h, read_int32]⟩
  rcases cell with n | x | text | bytes
  · simp only [read] at h
    split at h
    · rename_i hrange
      cases h
      rw [Int32.toInt_ofInt_of_le hrange.1 (Int.lt_of_le_of_lt hrange.2 (by decide))]
    · cases h
  all_goals cases h

/-! ## Rows with texts -/

/-- The user as it is stored. -/
def User.stored (u : User) : User TextCell := ⟨u.id, u.username⟩

/-- The architecture as it is stored. -/
def Arch.stored (a : Arch) : Arch TextCell := ⟨a.id, a.name⟩

/-- The host as it is stored. -/
def Host.stored (h : Host) : Host TextCell := ⟨h.id, h.hostname, h.archId⟩

/-- The opcode as it is stored. -/
def Opcode.stored (o : Opcode) : Opcode TextCell := ⟨o.id, o.name, o.archId⟩

/-- The success as it is stored. -/
def TestSuccess.stored (s : TestSuccess) : StoredSuccess :=
  ⟨s.id, s.batchId, s.opcodeId, .int s.count.toInt⟩

/-- The failure as it is stored. -/
def TestFailure.stored (f : TestFailure) : TestFailure TextCell :=
  ⟨f.id, f.batchId, f.opcodeId, f.pretty, f.arguments⟩

/-- The state as it is stored. -/
def TestFailureState.stored (d : TestFailureState) : TestFailureState TextCell :=
  ⟨d.id, d.failureId, d.location, d.expected, d.actual⟩

theorem User.read_eq_ok_iff {r : User TextCell} {u : User} : r.read = .ok u ↔ r = u.stored := by
  refine ⟨fun h => ?_, fun h => by rw [h]; rfl⟩
  obtain ⟨id, text | bytes⟩ := r <;> cases h
  rfl

theorem Arch.read_eq_ok_iff {r : Arch TextCell} {a : Arch} : r.read = .ok a ↔ r = a.stored := by
  refine ⟨fun h => ?_, fun h => by rw [h]; rfl⟩
  obtain ⟨id, text | bytes⟩ := r <;> cases h
  rfl

theorem Host.read_eq_ok_iff {r : Host TextCell} {h : Host} : r.read = .ok h ↔ r = h.stored := by
  refine ⟨fun hread => ?_, fun hr => by rw [hr]; rfl⟩
  obtain ⟨id, text | bytes, archId⟩ := r <;> cases hread
  rfl

theorem Opcode.read_eq_ok_iff {r : Opcode TextCell} {o : Opcode} :
    r.read = .ok o ↔ r = o.stored := by
  refine ⟨fun h => ?_, fun h => by rw [h]; rfl⟩
  obtain ⟨id, text | bytes, archId⟩ := r <;> cases h
  rfl

theorem TestFailure.read_eq_ok_iff {r : TestFailure TextCell} {f : TestFailure} :
    r.read = .ok f ↔ r = f.stored := by
  refine ⟨fun h => ?_, fun h => by rw [h]; rfl⟩
  obtain ⟨id, batchId, opcodeId, pretty | bytes, arguments | bytes⟩ := r <;> cases h
  rfl

theorem TestFailureState.read_eq_ok_iff {r : TestFailureState TextCell} {d : TestFailureState} :
    r.read = .ok d ↔ r = d.stored := by
  refine ⟨fun h => ?_, fun h => by rw [h]; rfl⟩
  obtain ⟨id, failureId, location | bytes, expected | bytes, actual | bytes⟩ := r <;> cases h
  rfl

theorem TestSuccess.read_stored (s : TestSuccess) : s.stored.read = .ok s := by
  simp only [StoredSuccess.read, stored, NumberCell.read_int32]
  rfl

theorem StoredSuccess.read_eq_ok_iff {r : StoredSuccess} {s : TestSuccess} :
    r.read = .ok s ↔ r = s.stored := by
  refine ⟨fun h => ?_, fun h => by rw [h, s.read_stored]⟩
  obtain ⟨id, batchId, opcodeId, cell⟩ := r
  cases hcount : cell.read with
  | ok count =>
    simp only [read, hcount] at h
    cases h
    rw [NumberCell.read_eq_ok_iff.1 hcount]
    rfl
  | error fault =>
    simp only [read, hcount] at h
    cases h

/-- A batch is read from its texts, if that of its time is one. -/
theorem StoredBatch.read_eq_ok_iff {r : StoredBatch} {b : Batch} :
    r.read = .ok b ↔
      ∃ time : String, r = ⟨b.id, b.fuzzerHost, b.testingHostId, b.userId, time⟩ ∧
        Timestamp.parse? time = some b.submittedAt := by
  constructor
  · intro h
    obtain ⟨id, text | bytes, testingHostId, userId, time | bytes⟩ := r
    case octets.text | octets.octets | text.octets =>
      simp only [read, TextCell.read, Bind.bind, Except.bind] at h
      repeat' split at h
      all_goals cases h
    case text.text =>
      cases htime : Timestamp.parse? time with
      | none =>
        simp only [read, TextCell.read, Bind.bind, Except.bind, htime] at h
        cases h
      | some t =>
        simp only [read, TextCell.read, Bind.bind, Except.bind, htime] at h
        cases h
        exact ⟨time, rfl, htime⟩
  · rintro ⟨time, rfl, htime⟩
    simp only [read, TextCell.read, Bind.bind, Except.bind, htime]
    rfl

/-- A batch that was stamped by the clock is read with the time of the reading. -/
theorem StoredBatch.read_stamped (id testingHostId userId : Int) (fuzzerHost : String)
    (now : Stamp) :
    StoredBatch.read ⟨id, fuzzerHost, testingHostId, userId, now.text⟩ =
      .ok ⟨id, fuzzerHost, testingHostId, userId, now.time⟩ :=
  read_eq_ok_iff.2 ⟨now.text, rfl, now.parse?_text⟩

/-! ## Rows of any kind -/

/-- The identifier of a row as it is read. -/
def Item.id : (e : Entity) → Item e → Int
  | .user, x => User.id x
  | .arch, x => Arch.id x
  | .host, x => Host.id x
  | .batch, x => Batch.id x
  | .opcode, x => Opcode.id x
  | .testSuccess, x => TestSuccess.id x
  | .testFailure, x => TestFailure.id x
  | .testFailureState, x => TestFailureState.id x

theorem Item.id_of_read {e : Entity} {r : Row e} {x : Item e} (h : Row.read e r = .ok x) :
    id e x = Row.id e r := by
  cases e with
  | user => rw [User.read_eq_ok_iff.1 h]; rfl
  | arch => rw [Arch.read_eq_ok_iff.1 h]; rfl
  | host => rw [Host.read_eq_ok_iff.1 h]; rfl
  | batch =>
    obtain ⟨time, rfl, -⟩ := StoredBatch.read_eq_ok_iff.1 h
    rfl
  | opcode => rw [Opcode.read_eq_ok_iff.1 h]; rfl
  | testSuccess => rw [StoredSuccess.read_eq_ok_iff.1 h]; rfl
  | testFailure => rw [TestFailure.read_eq_ok_iff.1 h]; rfl
  | testFailureState => rw [TestFailureState.read_eq_ok_iff.1 h]; rfl

/-! ## Rows found by name -/

theorem Table.mem_of_findNamed? {e : Entity} {t : Table e} {name : TextCell} {r : Row e}
    (h : t.findNamed? name = some r) : r ∈ t.rows ∧ Row.uniqueName? e r = some name :=
  ⟨List.mem_of_find?_eq_some h, by simpa using List.find?_some h⟩

namespace Store

variable (s : Store)

/-- A host found under a text can be read. -/
theorem findHost?_eq (hostname : String) :
    s.findHost? hostname =
      .ok ((s.hosts.findNamed? hostname).map fun h => ⟨h.id, hostname, h.archId⟩) := by
  unfold findHost? findNamed? table
  cases h : s.hosts.findNamed? hostname with
  | none => rfl
  | some host =>
    obtain ⟨id, cell, archId⟩ := host
    cases Option.some.inj (Table.mem_of_findNamed? h).2
    rfl

end Store

end FuzzLedger
