import FuzzLedger.Session.Call
import FuzzLedger.Timestamp.Clock

/-!
# Recording a report is all or nothing

`Session.record` opens a transaction and carries out one statement after the other.  A statement
that fails leaves what the earlier ones have written, unless it fails because the identifiers have
run out: then the tables give up the whole transaction themselves.

* `act_of_ok`, `write_of_error` and their like — what one statement does where there are tables.
* `Carries` — inside an open transaction a call does to the tables what an action does to a store,
  and a failure leaves a session that closes to the image from before the transaction.  It goes
  through sequencing and contexts, so it holds of recording as a whole (`carries_recordReport`).
* `record_eq` — without an open transaction, recording replaces the tables by those that
  `Action.recordReport` leaves if it succeeds, and changes nothing if it fails.
* `record_all_or_nothing` — the contract for every session and every report.
-/

set_option autoImplicit false

namespace FuzzLedger.Session

variable {α β : Type}

/-! ## One statement -/

/-- The session with other tables. -/
def withTables (s : Session) (store : Store) : Session :=
  { s with image := { s.image with tables := some store } }

section Statement

variable {s t : Session} {store store' : Store} {a : Action α} {x : α} {f : Failure}
  {bare : Failure}

theorem act_of_ok (htables : s.image.tables = some store) (h : a store = .ok x store') :
    act bare a s = .ok x (s.withTables store') := by
  simp only [act, htables, h, withTables]

theorem write_of_ok (htables : s.image.tables = some store) (h : a store = .ok x store') :
    write bare a s = .ok x (s.withTables store') := by
  simp only [write, act_of_ok htables h]

theorem act_of_error (htables : s.image.tables = some store) (h : a store = .error f store) :
    act bare a s = .error f s := by
  obtain ⟨⟨version, tables⟩, saved⟩ := s
  subst htables
  simp only [act, h]

/-- An open transaction goes on after a failure, unless the identifiers have run out. -/
theorem write_of_error (htables : s.image.tables = some store) (h : a store = .error f store)
    (hfull : f.fault ≠ .engine .full) : write bare a s = .error f s := by
  simp only [write, act_of_error htables h, if_neg hfull]

theorem act_eq_ok (htables : s.image.tables = some store) (h : act bare a s = .ok x t) :
    ∃ store', a store = .ok x store' ∧ t.image.tables = some store' := by
  simp only [act, htables] at h
  cases ha : a store with
  | ok y store' =>
    rw [ha] at h
    cases h
    exact ⟨store', rfl, rfl⟩
  | error f store' =>
    rw [ha] at h
    cases h

theorem write_eq_ok (htables : s.image.tables = some store) (h : write bare a s = .ok x t) :
    ∃ store', a store = .ok x store' ∧ t.image.tables = some store' := by
  unfold write at h
  split at h
  · rename_i hact
    cases h
    exact act_eq_ok htables hact
  · cases h

/-- Where there are tables, only what is done to them matters. -/
theorem write_congr {b : Action α} {bare' : Failure} (htables : s.image.tables = some store)
    (h : a store = b store) : write bare a s = write bare' b s := by
  simp only [write, act, htables, h]

/-- Where there are tables, reading depends on nothing else and changes nothing. -/
theorem query_eq (htables : s.image.tables = some store) (e : Entity)
    (read : Store → Except Fault α) :
    query e read s =
      match read store with
      | .ok x => .ok x s
      | .error fault => .error ⟨fault, []⟩ s := by
  obtain ⟨⟨version, tables⟩, saved⟩ := s
  subst htables
  simp only [query, act]
  cases read store <;> rfl

end Statement

/-! ## Statements inside a transaction -/

/-- What the call does inside a transaction opened on `im` is what the action does.  When it fails,
the transaction may be open still or not: the session closes to `im` either way. -/
def Carries (a : Action α) (call : Call α) : Prop :=
  ∀ (version : Int) (store : Store) (im : Image),
    match a store with
    | .ok x store' =>
      call ⟨⟨version, some store⟩, some im⟩ = .ok x ⟨⟨version, some store'⟩, some im⟩
    | .error f _ => ∃ s, call ⟨⟨version, some store⟩, some im⟩ = .error f s ∧ s.close = im

theorem Carries.pure (x : α) : Carries (pure x) (pure x) := fun _ _ _ => rfl

theorem Carries.bind {a : Action α} {call : Call α} {f : α → Action β} {g : α → Call β}
    (ha : Carries a call) (hf : ∀ x, Carries (f x) (g x)) : Carries (a >>= f) (call >>= g) := by
  intro version store im
  have h := ha version store im
  cases ha : a store with
  | ok x store' =>
    rw [ha] at h
    simp only [Bind.bind, EStateM.bind, ha, h]
    exact hf x version store' im
  | error fault store' =>
    rw [ha] at h
    obtain ⟨s, hcall, hclose⟩ := h
    simp only [Bind.bind, EStateM.bind, ha, hcall]
    exact ⟨s, rfl, hclose⟩

theorem Carries.within {a : Action α} {call : Call α} (h : Carries a call) (context : String) :
    Carries (Action.within context a) (within context call) := by
  intro version store im
  have h := h version store im
  cases ha : a store with
  | ok x store' =>
    rw [ha] at h
    simp only [Action.within, Session.within, ha, h]
  | error fault store' =>
    rw [ha] at h
    obtain ⟨s, hcall, hclose⟩ := h
    simp only [Action.within, Session.within, ha, hcall]
    exact ⟨s, rfl, hclose⟩

theorem carries_act (bare : Failure) (a : Action α) : Carries a (act bare a) := by
  intro version store im
  cases ha : a store with
  | ok x store' => simp only [act, ha]
  | error fault store' =>
    simp only [act, ha]
    exact ⟨_, rfl, rfl⟩

/-- A statement that runs out of identifiers gives the transaction up, which leads to `im` too. -/
theorem carries_write (bare : Failure) (a : Action α) : Carries a (write bare a) := by
  intro version store im
  have h := carries_act bare a version store im
  cases ha : a store with
  | ok x store' =>
    rw [ha] at h
    simp only [write, h]
  | error fault store' =>
    rw [ha] at h
    obtain ⟨s, hcall, hclose⟩ := h
    simp only [write, hcall]
    refine ⟨_, rfl, ?_⟩
    split
    · exact hclose
    · exact hclose

/-! ## Recording, statement by statement -/

theorem carries_recordDiffs (index : Nat) (failureId : Int) :
    ∀ (diffs : List StateDiff) (tally : Tally),
      Carries (Action.recorder.recordDiffs index failureId tally diffs)
        (recorder.recordDiffs index failureId tally diffs)
  | [], tally => Carries.pure tally
  | _ :: diffs, _ =>
    Carries.bind (Carries.within (carries_write _ _) _) fun _ =>
      carries_recordDiffs index failureId diffs _

theorem carries_recordOutcome (index : Nat) (batchId opcodeId : Int) (tally : Tally)
    (entry : Entry) :
    Carries (Action.recorder.recordOutcome index batchId opcodeId tally entry)
      (recorder.recordOutcome index batchId opcodeId tally entry) := by
  cases entry with
  | success opcode count =>
    exact Carries.bind (carries_write _ _) fun _ => Carries.pure _
  | failure opcode pretty arguments state =>
    refine Carries.bind (Carries.within (carries_write _ _) _) fun failure => ?_
    exact Carries.bind (carries_recordDiffs index failure.id state tally) fun _ => Carries.pure _

theorem carries_resolveOpcode (archId : Int) (known : KnownOpcodes) (name : String) :
    Carries (Action.recorder.resolveOpcode archId known name)
      (recorder.resolveOpcode archId known name) := by
  unfold Recorder.resolveOpcode
  cases known.lookup name with
  | some id => exact Carries.pure _
  | none => exact Carries.bind (carries_write _ _) fun _ => Carries.pure _

theorem carries_recordEntries (batchId archId : Int) :
    ∀ (entries : List Entry) (index : Nat) (known : KnownOpcodes) (tally : Tally),
      Carries (Action.recorder.recordEntries batchId archId index known tally entries)
        (recorder.recordEntries batchId archId index known tally entries)
  | [], _, _, tally => Carries.pure tally
  | entry :: entries, index, known, tally =>
    Carries.bind (Carries.within (carries_resolveOpcode archId known _) _) fun resolved =>
      Carries.bind (carries_recordOutcome index batchId resolved.1 tally entry) fun _ =>
        carries_recordEntries batchId archId entries (index + 1) resolved.2 _

theorem carries_recordReport (now : Stamp) (r : Report) :
    Carries (Action.recordReport now r) (recorder.recordReport now r) :=
  Carries.bind (Carries.within (carries_write _ _) _) fun _ =>
    Carries.bind (Carries.within (carries_write _ _) _) fun _ =>
      Carries.bind (Carries.within (carries_write _ _) _) fun _ =>
        Carries.bind (carries_act _ _) fun _ =>
          Carries.bind (carries_recordEntries _ _ _ _ _ _) fun _ => Carries.pure _

/-! ## The transaction around it -/

variable {s : Session}

theorem transact_of_saved {im : Image} (h : s.saved = some im) (call : Call α) :
    transact call s = .error ⟨.engine .nestedTransaction, []⟩ s := by
  simp [transact, startTransaction, h, Bind.bind, EStateM.bind]

theorem transact_of_ok (h : s.saved = none) {call : Call α} {x : α} {image : Image}
    (hcall : call { s with saved := some s.image } = .ok x ⟨image, some s.image⟩) :
    transact call s = .ok x ⟨image, none⟩ := by
  simp [transact, startTransaction, commit, h, hcall, Bind.bind, EStateM.bind, Pure.pure,
    EStateM.pure]

theorem transact_of_error (h : s.saved = none) {call : Call α} {f : Failure} {s' : Session}
    (hcall : call { s with saved := some s.image } = .error f s') (hclose : s'.close = s.image) :
    transact call s = .error f s := by
  obtain ⟨image, saved⟩ := s
  subst h
  simp only at hcall hclose
  simp [transact, startTransaction, hcall, abandon, hclose, Bind.bind, EStateM.bind]

/-- Without an open transaction, a call in one of its own is its action on the tables or nothing. -/
theorem transact_of_carries {a : Action α} {call : Call α} (h : Carries a call)
    (hsaved : s.saved = none) {store : Store} (htables : s.image.tables = some store) :
    transact call s =
      match a store with
      | .ok x store' => .ok x { s with image := { s.image with tables := some store' } }
      | .error f _ => .error f s := by
  obtain ⟨⟨version, tables⟩, saved⟩ := s
  subst hsaved htables
  have h := h version store ⟨version, some store⟩
  cases ha : a store with
  | ok x store' =>
    rw [ha] at h
    exact transact_of_ok rfl h
  | error f store' =>
    rw [ha] at h
    obtain ⟨s', hcall, hclose⟩ := h
    exact transact_of_error rfl hcall hclose

/-- **Without an open transaction, recording is the recording action on the tables or nothing.** -/
theorem record_eq (now : Stamp) (r : Report) (hsaved : s.saved = none) {store : Store}
    (htables : s.image.tables = some store) :
    record now r s =
      match Action.recordReport now r store with
      | .ok m store' => .ok m { s with image := { s.image with tables := some store' } }
      | .error f _ => .error f s := by
  have h := transact_of_carries (carries_recordReport now r) hsaved htables
  cases ha : Action.recordReport now r store <;> rw [ha] at h <;> exact h

/-- Without tables the first statement fails, and nothing was done before it. -/
theorem record_of_bare (now : Stamp) (r : Report) (hsaved : s.saved = none)
    (htables : s.image.tables = none) : ∃ f, record now r s = .error f s := by
  obtain ⟨⟨version, tables⟩, saved⟩ := s
  subst hsaved htables
  refine ⟨_, transact_of_error rfl rfl ?_⟩
  split <;> rfl

/-- Recording changes nothing, or else it has replaced the tables. -/
theorem record_cases (now : Stamp) (r : Report) (s : Session) :
    (∃ f, record now r s = .error f s) ∨
    (s.saved = none ∧ ∃ m store store', s.image.tables = some store ∧
      Action.recordReport now r store = .ok m store' ∧
      record now r s = .ok m { s with image := { s.image with tables := some store' } }) := by
  rcases Option.eq_none_or_eq_some s.saved with hsaved | ⟨im, hsaved⟩
  · rcases Option.eq_none_or_eq_some s.image.tables with htables | ⟨store, htables⟩
    · exact .inl (record_of_bare now r hsaved htables)
    · have h := record_eq now r hsaved htables
      cases ha : Action.recordReport now r store with
      | ok m store' => rw [ha] at h; exact .inr ⟨hsaved, m, store, store', htables, ha, h⟩
      | error f store' => rw [ha] at h; exact .inl ⟨f, h⟩
  · exact .inl ⟨_, transact_of_saved hsaved _⟩

/-- **Recording is all or nothing.**  A failed recording leaves the session as it was: the tables
with their rows and sequences, and the transaction if one is open, with all that is pending in it.
Inside an open transaction recording always fails.  Otherwise it succeeds exactly if the recording
action does, and then it has stored everything that the action stores; none is open afterwards. -/
theorem record_all_or_nothing (now : Stamp) (r : Report) (s : Session) :
    (∀ f s', record now r s = .error f s' → s' = s) ∧
    (∀ im, s.saved = some im → record now r s = .error ⟨.engine .nestedTransaction, []⟩ s) ∧
    (s.saved = none → ∀ m s', record now r s = .ok m s' ↔
      ∃ store store', s.image.tables = some store ∧ Action.recordReport now r store = .ok m store' ∧
        s' = { image := { s.image with tables := some store' }, saved := none }) := by
  refine ⟨fun f s' hf => ?_, fun im him => transact_of_saved him _, fun hsaved m s' => ⟨?_, ?_⟩⟩
  · rcases record_cases now r s with ⟨f', h⟩ | ⟨-, m, store, store', -, -, h⟩
    · rw [h] at hf; cases hf; rfl
    · rw [h] at hf; cases hf
  · intro hok
    rcases record_cases now r s with ⟨f', h⟩ | ⟨-, m, store, store', htables, ha, h⟩
    · rw [h] at hok; cases hok
    · rw [h] at hok; cases hok
      exact ⟨store, store', htables, ha, by rw [hsaved]⟩
  · rintro ⟨store, store', htables, ha, rfl⟩
    rw [record_eq now r hsaved htables, ha, hsaved]

/-- A ledger whose successes have run out of identifiers. -/
def exhausted : Session :=
  { image := ⟨1, some { Store.empty with successes := ⟨[], Store.maxId⟩ }⟩ }

/-- A report of one success. -/
def oneSuccess : Report := ⟨"fuzzer", "tester", "user", "arch", [.success "add" 3]⟩

/-- The last statement fails where the identifiers have run out, and what the five statements before
it have stored is undone.  Inside a transaction the report is refused; into a new ledger it goes. -/
theorem record_oneSuccess :
    (∃ s', record .epoch oneSuccess exhausted = .error ⟨.engine .full, []⟩ s' ∧ s' = exhausted) ∧
    (∃ s : Session, s.saved = some .fresh ∧
      record .epoch oneSuccess s = .error ⟨.engine .nestedTransaction, []⟩ s) ∧
    ∃ m s', record .epoch oneSuccess { image := .fresh } = .ok m s' ∧ s'.saved = none := by
  refine ⟨⟨_, rfl, ?_⟩, ⟨{ exhausted with saved := some .fresh }, rfl, ?_⟩, ⟨_, _, rfl, ?_⟩⟩
  · exact (record_all_or_nothing .epoch oneSuccess exhausted).1 _ _ rfl
  · exact (record_all_or_nothing ..).2.1 _ rfl
  · obtain ⟨store, store', -, -, h⟩ :=
      ((record_all_or_nothing .epoch oneSuccess { image := .fresh }).2.2 rfl _ _).1 rfl
    rw [h]

end FuzzLedger.Session
