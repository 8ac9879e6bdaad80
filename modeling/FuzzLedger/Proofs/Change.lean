import FuzzLedger.Proofs.ReadForm
import FuzzLedger.Session.Call
import Mathlib

/-!
# What the writing operations do to the tables

Every writing operation of the ledger, whether it succeeds or fails, takes the tables through a
sequence of three kinds of changes: it adds a row that violates no rule, it spends an identifier
(`Store.Growth`), or it deletes a row with all that depends on it (`Store.Change`).  `Action.Via`
says so of an action; it goes through sequencing, so it is proved once for the primitive actions and
carried up to recording (`grows_recordReport`).  Invariants of the tables need to be looked at for
the three changes only.  Operations that make rows of one kind change one table only
(`Store.GrowthIn`).

The writing operations add proper rows under the next identifier (`Store.Regular`); a direct
insertion may add any row that the rules of the tables leave (`Store.Arbitrary`).
-/

set_option autoImplicit false

namespace FuzzLedger

/-- The state in which a computation ends, whether it succeeds or fails. -/
def finalState {ε σ α : Type} : EStateM.Result ε σ α → σ
  | .ok _ s => s
  | .error _ s => s

/-- A row as the writing operations make it: its texts fit and it can be read. -/
structure Row.Proper (e : Entity) (r : Row e) : Prop where
  fits : ∀ b ∈ Row.boundedTexts e r, b.text.Fits b.limit
  readable : ∃ item, Row.read e r = .ok item

/-- A way of adding to the tables.  A row may be added if it violates no rule and is allowed; an
identifier may be spent. -/
inductive Store.Growth (Allowed : Store → (e : Entity) → Row e → Prop) : Store → Store → Prop where
  | add {s : Store} {e : Entity} {r : Row e} :
      s.violation? e r = none → Allowed s e r → Growth Allowed s (s.add e r)
  | spend {s : Store} {e : Entity} {id : Int} :
      s.nextId? e = some id → Growth Allowed s (s.spendId e id)

/-- The rows that the writing operations add: proper ones, under the next identifier. -/
def Store.Regular (s : Store) (e : Entity) (r : Row e) : Prop :=
  s.nextId? e = some (Row.id e r) ∧ Row.Proper e r

/-- Regular growth of one table, which leaves the others as they are. -/
structure Store.GrowthIn (e : Entity) (s t : Store) : Prop where
  growth : Store.Growth Store.Regular s t
  frame : ∀ f, f ≠ e → t.table f = s.table f

/-- The rows that a direct insertion may add: all that the rules of the tables leave. -/
def Store.Arbitrary (_ : Store) (e : Entity) (_ : Row e) : Prop := True

/-- One change that the writing operations make to the tables. -/
inductive Store.Change : Store → Store → Prop where
  | grow {s t : Store} : Store.Growth Store.Regular s t → Change s t
  | remove {s : Store} {target : RowRef} : s.has target = true → Change s (s.without target)

namespace Action

variable {α β : Type} {R : Store → Store → Prop}

/-- Whatever becomes of it, the action gets to its final tables by the given steps. -/
def Via (R : Store → Store → Prop) (a : Action α) : Prop :=
  ∀ s, Relation.ReflTransGen R s (finalState (a s))

theorem Via.mono {R' : Store → Store → Prop} (h : ∀ s t, R s t → R' s t) {a : Action α}
    (ha : Via R a) : Via R' a :=
  fun s => Relation.ReflTransGen.mono h _ _ (ha s)

/-- The action only adds, and adds regular rows only. -/
abbrev Grows (a : Action α) : Prop := Via (Store.Growth Store.Regular) a

/-- The action only adds, and adds regular rows of one kind only. -/
abbrev GrowsOnly (e : Entity) (a : Action α) : Prop := Via (Store.GrowthIn e) a

theorem GrowsOnly.grows {e : Entity} {a : Action α} (h : GrowsOnly e a) : Grows a :=
  h.mono fun _ _ hgrowth => hgrowth.growth

/-! ## Sequencing -/

theorem Via.pure (x : α) : Via R (pure x) := fun _ => .refl

theorem Via.fail (fault : Fault) : Via R (fail fault : Action α) := fun _ => .refl

theorem Via.bind {a : Action α} {f : α → Action β} (ha : Via R a) (hf : ∀ x, Via R (f x)) :
    Via R (a >>= f) := by
  intro s
  have h := ha s
  cases has : a s with
  | ok x s' =>
    rw [has] at h
    simp only [Bind.bind, EStateM.bind, has]
    exact h.trans (hf x s')
  | error fault s' =>
    rw [has] at h
    simp only [Bind.bind, EStateM.bind, has]
    exact h

theorem Via.within {a : Action α} (ha : Via R a) (context : String) :
    Via R (within context a) := by
  intro s
  have h := ha s
  cases has : a s <;> rw [has] at h <;> simp only [Action.within, has] <;> exact h

/-- What comes after a check of a text may rely on its length. -/
theorem Via.checkLength_bind {field value : String} {limit : Nat} {f : Unit → Action β}
    (hf : value.length ≤ limit → Via R (f ())) :
    Via R (checkLength field value limit >>= f) := by
  by_cases hle : value.length ≤ limit
  · rw [checkLength, Limit.check_eq_ok_iff.2 hle]
    exact hf hle
  · rw [checkLength, Limit.check_eq_error (by omega)]
    exact fun _ => .refl

/-- An action that goes by what it finds in the tables. -/
theorem Via.get_bind {f : Store → Action β} (hf : ∀ s, Via R (f s)) :
    Via R (get >>= f) :=
  fun s => hf s s

/-! ## Primitive actions -/

variable {e : Entity} {build : Int → Row e}

theorem insertNew_eq (e : Entity) (build : Int → Row e) (s : Store) :
    insertNew e build s =
      match s.nextId? e with
      | none => .error (.ofViolation .full) s
      | some id =>
        match s.violation? e (build id) with
        | some v => .error (.ofViolation v) s
        | none => .ok (build id) (s.add e (build id)) := by
  simp only [insertNew, nextId, insert, Bind.bind, EStateM.bind]
  cases s.nextId? e with
  | none => rfl
  | some id => simp only; cases s.violation? e (build id) <;> rfl

theorem grows_insertNew (hid : ∀ id, Row.id e (build id) = id)
    (hproper : ∀ id, Row.Proper e (build id)) : GrowsOnly e (insertNew e build) := by
  intro s
  rw [insertNew_eq]
  split
  · exact .refl
  · rename_i id hnext
    split
    · exact .refl
    · rename_i hok
      have hgrowth : Store.Growth Store.Regular s (s.add e (build id)) :=
        .add hok ⟨by rw [hid]; exact hnext, hproper id⟩
      exact .single ⟨hgrowth, fun f hf => Store.table_setTable_ne _ _ hf⟩

theorem insertIfNewName_eq (e : Entity) (build : Int → Row e) (s : Store) :
    insertIfNewName e build s =
      match s.nextId? e with
      | none => .error (.ofViolation .full) s
      | some id =>
        match s.violation? e (build id) with
        | none => .ok () (s.add e (build id))
        | some (.sameName _) => .ok () (s.spendId e id)
        | some v => .error (.ofViolation v) s := by
  simp only [insertIfNewName, nextId, Bind.bind, EStateM.bind]
  cases s.nextId? e <;> rfl

theorem grows_insertIfNewName (hid : ∀ id, Row.id e (build id) = id)
    (hproper : ∀ id, Row.Proper e (build id)) : GrowsOnly e (insertIfNewName e build) := by
  intro s
  rw [insertIfNewName_eq]
  split
  · exact .refl
  · rename_i id hnext
    split
    · rename_i hok
      have hgrowth : Store.Growth Store.Regular s (s.add e (build id)) :=
        .add hok ⟨by rw [hid]; exact hnext, hproper id⟩
      exact .single ⟨hgrowth, fun f hf => Store.table_setTable_ne _ _ hf⟩
    · exact .single ⟨.spend hnext, fun f hf => Store.table_setTable_ne _ _ hf⟩
    · exact .refl

theorem via_findNamed (name : String) : Via R (findNamed e name) := by
  intro s
  unfold findNamed
  split <;> exact .refl

/-! ## The writing operations -/

theorem proper_batch {fuzzerHost : String} (h : fuzzerHost.length ≤ Limit.fuzzerHost)
    (id testingHostId userId : Int) (now : Stamp) :
    Row.Proper .batch (⟨id, fuzzerHost, testingHostId, userId, now.text⟩ : StoredBatch) := by
  have hread := StoredBatch.read_stamped id testingHostId userId fuzzerHost now
  exact ⟨by simpa [Row.boundedTexts] using h, _, hread⟩

theorem grows_createUser (username : String) : GrowsOnly .user (createUser username) :=
  .checkLength_bind fun h =>
    .bind (grows_insertNew (fun _ => rfl) fun _ => ⟨by simpa [Row.boundedTexts] using h, _, rfl⟩)
      fun _ => .pure _

theorem grows_createArch (name : String) : GrowsOnly .arch (createArch name) :=
  .checkLength_bind fun h =>
    .bind (grows_insertNew (fun _ => rfl) fun _ => ⟨by simpa [Row.boundedTexts] using h, _, rfl⟩)
      fun _ => .pure _

theorem grows_createHost (hostname : String) (archId : Int) :
    GrowsOnly .host (createHost hostname archId) :=
  .checkLength_bind fun h =>
    .bind (grows_insertNew (fun _ => rfl) fun _ => ⟨by simpa [Row.boundedTexts] using h, _, rfl⟩)
      fun _ => .pure _

theorem grows_createOpcode (name : String) (archId : Int) :
    GrowsOnly .opcode (createOpcode name archId) :=
  .checkLength_bind fun h =>
    .bind (grows_insertNew (fun _ => rfl) fun _ => ⟨by simpa [Row.boundedTexts] using h, _, rfl⟩)
      fun _ => .pure _

theorem grows_createBatch (now : Stamp) (b : NewBatch) : GrowsOnly .batch (createBatch now b) :=
  .checkLength_bind fun h =>
    .bind (grows_insertNew (fun _ => rfl) fun _ => proper_batch h ..) fun _ => .pure _

theorem grows_addTestSuccess (batchId opcodeId : Int) (count : Int32) :
    GrowsOnly .testSuccess (addTestSuccess batchId opcodeId count) :=
  .bind (grows_insertNew (fun _ => rfl) fun id =>
    ⟨by simp [Row.boundedTexts], _, TestSuccess.read_stored ⟨id, batchId, opcodeId, count⟩⟩)
    fun _ => .pure _

theorem grows_addTestFailure (f : NewTestFailure) : GrowsOnly .testFailure (addTestFailure f) :=
  .checkLength_bind fun h =>
    .bind (grows_insertNew (fun _ => rfl) fun _ => ⟨by simpa [Row.boundedTexts] using h, _, rfl⟩)
      fun _ => .pure _

theorem grows_addTestFailureState (d : NewTestFailureState) :
    GrowsOnly .testFailureState (addTestFailureState d) :=
  .checkLength_bind fun h₁ => .checkLength_bind fun h₂ => .checkLength_bind fun h₃ =>
    .bind (grows_insertNew (fun _ => rfl) fun _ =>
      ⟨by simpa [Row.boundedTexts] using ⟨h₁, h₂, h₃⟩, _, rfl⟩) fun _ => .pure _

theorem grows_ensureUser (username : String) : GrowsOnly .user (ensureUser username) :=
  .checkLength_bind fun h =>
    .bind (grows_insertIfNewName (fun _ => rfl) fun _ =>
      ⟨by simpa [Row.boundedTexts] using h, _, rfl⟩) fun _ =>
        .bind (via_findNamed _) fun _ => .pure _

theorem grows_ensureArch (name : String) : GrowsOnly .arch (ensureArch name) :=
  .checkLength_bind fun h =>
    .bind (grows_insertIfNewName (fun _ => rfl) fun _ =>
      ⟨by simpa [Row.boundedTexts] using h, _, rfl⟩) fun _ =>
        .bind (via_findNamed _) fun _ => .pure _

theorem grows_ensureHost (hostname : String) (archId : Int) :
    GrowsOnly .host (ensureHost hostname archId) := by
  refine .get_bind fun s => ?_
  split
  · exact .fail _
  · exact grows_createHost hostname archId
  · split
    · exact .pure _
    · exact .fail _

theorem grows_ensureOpcode (name : String) (archId : Int) :
    GrowsOnly .opcode (ensureOpcode name archId) := by
  refine .get_bind fun s => ?_
  split
  · exact .pure _
  · exact grows_createOpcode name archId

/-! ## Recording -/

theorem grows_resolveOpcode (archId : Int) (known : KnownOpcodes) (name : String) :
    Grows (recorder.resolveOpcode archId known name) := by
  unfold Recorder.resolveOpcode
  cases known.lookup name with
  | some id => exact .pure _
  | none => exact .bind (grows_ensureOpcode name archId).grows fun _ => .pure _

theorem grows_recordDiffs (index : Nat) (failureId : Int) :
    ∀ (diffs : List StateDiff) (tally : Tally),
      Grows (recorder.recordDiffs index failureId tally diffs)
  | [], tally => .pure tally
  | _ :: diffs, _ =>
    .bind (.within (grows_addTestFailureState _).grows _) fun _ =>
      grows_recordDiffs index failureId diffs _

theorem grows_recordOutcome (index : Nat) (batchId opcodeId : Int) (tally : Tally) (entry : Entry) :
    Grows (recorder.recordOutcome index batchId opcodeId tally entry) := by
  cases entry with
  | success opcode count => exact .bind (grows_addTestSuccess _ _ _).grows fun _ => .pure _
  | failure opcode pretty arguments state =>
    exact .bind (.within (grows_addTestFailure _).grows _) fun _ =>
      .bind (grows_recordDiffs _ _ _ _) fun _ => .pure _

theorem grows_recordEntries (batchId archId : Int) :
    ∀ (entries : List Entry) (index : Nat) (known : KnownOpcodes) (tally : Tally),
      Grows (recorder.recordEntries batchId archId index known tally entries)
  | [], _, _, tally => .pure tally
  | _ :: entries, _, _, _ =>
    .bind (.within (grows_resolveOpcode _ _ _) _) fun _ =>
      .bind (grows_recordOutcome _ _ _ _ _) fun _ =>
        grows_recordEntries batchId archId entries _ _ _

/-- **Recording a report is a sequence of such changes**, also if it fails on the way. -/
theorem grows_recordReport (now : Stamp) (r : Report) : Grows (recordReport now r) :=
  .bind (.within (grows_ensureUser _).grows _) fun _ =>
    .bind (.within (grows_ensureArch _).grows _) fun _ =>
      .bind (.within (grows_ensureHost _ _).grows _) fun _ =>
        .bind (grows_createBatch _ _).grows fun _ =>
          .bind (grows_recordEntries _ _ _ _ _ _) fun _ => .pure _

/-! ## Direct insertion -/

theorem via_nextId (e : Entity) : Via R (nextId e) := by
  intro s
  unfold nextId
  split <;> exact .refl

theorem via_insert (e : Entity) (r : Row e) : Via (Store.Growth Store.Arbitrary) (insert e r) := by
  intro s
  unfold insert
  split
  · exact .refl
  · rename_i hok
    exact .single (.add hok trivial)

theorem via_giveId (e : Entity) (given : Cell) : Via R (giveId e given) := by
  unfold giveId
  split
  · exact via_nextId e
  · exact .pure _
  · exact .fail _

theorem via_refuse (e : Entity) (r : Row e) : Via R (refuse e r) := fun _ => .refl

theorem via_insertCells (now : Stamp) (e : Entity) (cells : Cells) :
    Via (Store.Growth Store.Arbitrary) (insertCells now e cells) := by
  unfold insertCells
  split
  · exact .fail _
  · refine .bind (via_giveId e _) fun id => ?_
    cases hrow : cells.toRow now id e with
    | error v => exact fun _ => .refl
    | ok row =>
      simp only
      split
      · exact .bind (via_insert e row) fun _ => .pure id
      · exact .bind (via_refuse e row) fun _ => .pure id

end Action

end FuzzLedger
