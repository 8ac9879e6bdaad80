import FuzzLedger.Proofs.Change
import FuzzLedger.Proofs.Coherence
import FuzzLedger.Proofs.Transaction
import FuzzLedger.Session.Request
import Mathlib

/-!
# What holds after every run

An `Event` is anything that may happen to a session: a request, a direct insertion, the start or the
end of a transaction, closing and opening again.  `Session.steps` carries out a run of events, each
of which may succeed or fail.

A property of the tables that the changes of `Store.Change` keep holds after every run, in the
tables and in the image that an open transaction would return to (`holds_steps`).  The two
instances are

* `Store.Coherent` for every run: keys, references and names, with direct insertions
  (`coherent_steps`);
* `Store.Tidy` for every run without direct insertions: identifiers, lengths, counts and times.

`tables_after_run` spells both out column by column.
-/

set_option autoImplicit false

namespace FuzzLedger

/-! ## Events -/

/-- What may happen to a session. -/
inductive Event where
  | request (r : Request)
  | insert (now : Stamp) (e : Entity) (cells : Cells)
  | startTransaction
  | commit
  | rollback
  /-- The database is closed and opened again; one that is kept in memory starts anew. -/
  | reopen (inMemory : Bool)

/-- Whether the event writes past the checks of the writing operations. -/
def Event.isDirect : Event → Bool
  | .insert .. => true
  | _ => false

namespace Session

/-- A session on a new ledger. -/
def fresh : Session := { image := .fresh }

/-- The session after an event, whether it succeeded or failed. -/
def step (s : Session) : Event → Session
  | .request r => s.after r
  | .insert now e cells => finalState (insertCells now e cells s)
  | .startTransaction => finalState (startTransaction s)
  | .commit => finalState (commit s)
  | .rollback => finalState (rollback s)
  | .reopen inMemory =>
    match open? (if inMemory then none else some (.database s.close)) with
    | .ok s' => s'
    | .error _ => s.abandon

/-- The session after a run. -/
def steps (s : Session) (run : List Event) : Session := run.foldl step s

/-- A new ledger is what opening gives where there is no file. -/
theorem open?_none : open? none = .ok fresh := rfl

end Session

/-! ## Properties of the tables along a run -/

/-- The kind of the rows that a request makes.  Recording makes rows of several kinds, and deleting
makes none. -/
def Request.kind? : Request → Option Entity
  | .createUser _ => some .user
  | .createArch _ => some .arch
  | .createHost .. => some .host
  | .createOpcode .. => some .opcode
  | .createBatch .. => some .batch
  | .addTestSuccess .. => some .testSuccess
  | .addTestFailure _ => some .testFailure
  | .addTestFailureState _ => some .testFailureState
  | .ensureUser _ => some .user
  | .ensureArch _ => some .arch
  | .ensureHost .. => some .host
  | .ensureOpcode .. => some .opcode
  | .record .. => none
  | .delete .. => none

/-- The image has the newest schema, and its tables have the property. -/
def Image.Holds (P : Store → Prop) (im : Image) : Prop :=
  im.version = Fault.newestVersion ∧ ∃ store, im.tables = some store ∧ P store

namespace Session

/-- The property holds of the tables, and would hold after rolling back. -/
structure Holds (P : Store → Prop) (s : Session) : Prop where
  image : s.image.Holds P
  saved : ∀ im, s.saved = some im → im.Holds P

variable {P : Store → Prop} {s : Session} {α β : Type}

theorem Holds.fresh (h : P .empty) : fresh.Holds P :=
  ⟨⟨rfl, .empty, rfl, h⟩, fun _ him => by cases him⟩

theorem Holds.close (h : s.Holds P) : s.close.Holds P := by
  unfold Session.close
  cases hsaved : s.saved with
  | none => exact h.image
  | some im => exact h.saved im hsaved

theorem Holds.abandon (h : s.Holds P) : s.abandon.Holds P :=
  ⟨h.close, fun _ him => by cases him⟩

theorem Holds.act {a : Action α} (ha : ∀ store, P store → P (finalState (a store)))
    (h : s.Holds P) (bare : Failure) : (finalState (act bare a s)).Holds P := by
  obtain ⟨⟨hversion, store, htables, hstore⟩, hsaved⟩ := h
  have hfinal := ha store hstore
  simp only [Session.act, htables]
  cases has : a store with
  | ok x store' =>
    rw [has] at hfinal
    exact ⟨⟨hversion, store', rfl, hfinal⟩, hsaved⟩
  | error f store' =>
    rw [has] at hfinal
    exact ⟨⟨hversion, store', rfl, hfinal⟩, hsaved⟩

theorem Holds.write {a : Action α} (ha : ∀ store, P store → P (finalState (a store)))
    (h : s.Holds P) (bare : Failure) : (finalState (write bare a s)).Holds P := by
  have hact := h.act ha bare
  simp only [Session.write]
  cases has : Session.act bare a s with
  | ok x s' => rw [has] at hact; exact hact
  | error f s' =>
    rw [has] at hact
    simp only [finalState] at hact ⊢
    split
    · exact hact.abandon
    · exact hact

/-- What is made of the answer of a call does not matter for the session. -/
theorem finalState_map (call : Call α) (f : α → β) (s : Session) :
    finalState ((do return f (← call) : Call β) s) = finalState (call s) := by
  simp only [Bind.bind, EStateM.bind]
  cases call s <;> rfl

theorem Holds.map {call : Call α} (h : (finalState (call s)).Holds P) (f : α → β) :
    (finalState ((do return f (← call) : Call β) s)).Holds P := by
  rw [finalState_map]
  exact h

theorem after_eq (s : Session) (r : Request) : s.after r = finalState (perform r s) := by
  unfold after
  cases perform r s <;> rfl

/-- A property that some steps keep is kept by an action made of them. -/
theorem keeps_of_via {R : Store → Store → Prop} {a : Action α} (hkeep : ∀ s t, R s t → P s → P t)
    (ha : Action.Via R a) (store : Store) (h : P store) : P (finalState (a store)) := by
  have hvia := ha store
  generalize finalState (a store) = final at hvia ⊢
  induction hvia with
  | refl => exact h
  | tail _ hchange ih => exact hkeep _ _ hchange ih

/-- So it holds after the action has succeeded. -/
theorem keeps_of_ok {R : Store → Store → Prop} {a : Action α} (hkeep : ∀ s t, R s t → P s → P t)
    (ha : Action.Via R a) {store store' : Store} {x : α} (hok : a store = .ok x store')
    (h : P store) : P store' := by
  have hfinal := keeps_of_via hkeep ha store h
  rw [hok] at hfinal
  exact hfinal

/-- What growth of one table keeps, the requests that make rows for this table keep. -/
theorem Holds.after_of_kind? {r : Request} {e : Entity} (hkind : r.kind? = some e)
    (hkeep : ∀ s t, Store.GrowthIn e s t → P s → P t) (h : s.Holds P) : (s.after r).Holds P := by
  have hkeeps {α : Type} {a : Action α} (ha : Action.GrowsOnly e a) (store : Store) :
      P store → P (finalState (a store)) :=
    keeps_of_via hkeep ha store
  rw [after_eq]
  cases r <;> cases hkind
  case createBatch now b => exact Holds.map (h.act (hkeeps (Action.grows_createBatch now b)) _) _
  case createUser => exact Holds.map (h.write (hkeeps (Action.grows_createUser _)) _) _
  case createArch => exact Holds.map (h.write (hkeeps (Action.grows_createArch _)) _) _
  case createHost => exact Holds.map (h.write (hkeeps (Action.grows_createHost _ _)) _) _
  case createOpcode => exact Holds.map (h.write (hkeeps (Action.grows_createOpcode _ _)) _) _
  case addTestSuccess => exact Holds.map (h.write (hkeeps (Action.grows_addTestSuccess _ _ _)) _) _
  case addTestFailure => exact Holds.map (h.write (hkeeps (Action.grows_addTestFailure _)) _) _
  case addTestFailureState =>
    exact Holds.map (h.write (hkeeps (Action.grows_addTestFailureState _)) _) _
  case ensureUser => exact Holds.map (h.write (hkeeps (Action.grows_ensureUser _)) _) _
  case ensureArch => exact Holds.map (h.write (hkeeps (Action.grows_ensureArch _)) _) _
  case ensureHost => exact Holds.map (h.write (hkeeps (Action.grows_ensureHost _ _)) _) _
  case ensureOpcode => exact Holds.map (h.write (hkeeps (Action.grows_ensureOpcode _ _)) _) _

/-- What removing a row with its dependents keeps, a deletion keeps. -/
theorem Holds.after_delete
    (hkeep : ∀ (s : Store) target, s.has target = true → P s → P (s.without target))
    (h : s.Holds P) (e : Entity) (id : Int) : (s.after (.delete e id)).Holds P := by
  rw [after_eq]
  refine Holds.map (h.write (fun store hstore => ?_) _) _
  rw [Action.delete_eq]
  split
  · rename_i hhas; exact hkeep store _ hhas hstore
  · exact hstore

/-- What a successful recording keeps, a recording keeps: if it fails it does nothing. -/
theorem Holds.after_record {now : Stamp} {r : Report}
    (hkeep : ∀ m s t, Action.recordReport now r s = .ok m t → P s → P t) (h : s.Holds P) :
    (s.after (.record now r)).Holds P := by
  rw [after_eq]
  refine Holds.map ?_ _
  rcases record_cases now r s with ⟨f, hf⟩ | ⟨hsaved, m, store, store', htables, ha, hok⟩
  · rw [hf]; exact h
  · obtain ⟨hversion, store₀, htables₀, hstore⟩ := h.image
    rw [htables] at htables₀
    cases htables₀
    rw [hok]
    exact ⟨⟨hversion, store', rfl, hkeep m store store' ha hstore⟩, h.saved⟩

/-- **What the regular changes keep, every request keeps.** -/
theorem Holds.after (hkeep : ∀ s t, Store.Change s t → P s → P t) (h : s.Holds P) (r : Request) :
    (s.after r).Holds P := by
  cases hkind : r.kind? with
  | some e =>
    exact h.after_of_kind? hkind fun _ _ hgrowth => hkeep _ _ (.grow hgrowth.growth)
  | none =>
    cases r with
    | record now report =>
      refine h.after_record fun m store store' hok hstore => ?_
      have hvia := (Action.grows_recordReport now report).mono fun _ _ => Store.Change.grow
      exact keeps_of_ok hkeep hvia hok hstore
    | delete e id => exact h.after_delete (fun _ _ hhas => hkeep _ _ (.remove hhas)) e id
    | _ => cases hkind

theorem Holds.startTransaction (h : s.Holds P) : (finalState (startTransaction s)).Holds P := by
  unfold Session.startTransaction
  split
  · exact h
  · exact ⟨h.image, fun im him => by cases him; exact h.image⟩

theorem Holds.commit (h : s.Holds P) : (finalState (commit s)).Holds P := by
  unfold Session.commit
  split
  · exact ⟨h.image, fun im him => by cases him⟩
  · exact h

theorem Holds.rollback (h : s.Holds P) : (finalState (rollback s)).Holds P := by
  unfold Session.rollback
  split
  · rename_i im hsaved
    exact ⟨h.saved im hsaved, fun im him => by cases him⟩
  · exact h

/-- A ledger of the newest schema is opened as it is. -/
theorem open?_of_newest {im : Image} (h : im.version = Fault.newestVersion) :
    open? (some (.database im)) = .ok { image := im } := by
  have hmigrate : migrate { image := im } = .ok () { image := im } := migrate_of_newest h
  simp only [open?, FileContent.image?, Bind.bind, Except.bind, hmigrate]
  rfl

/-- A ledger that is kept in a file comes back as it was closed. -/
theorem Holds.reopen_file (h : s.Holds P) : (s.step (.reopen false)).Holds P := by
  have hopen := open?_of_newest h.close.1
  simp only [step, Bool.false_eq_true, if_false, hopen]
  exact h.abandon

theorem Holds.reopen (hempty : P .empty) (h : s.Holds P) (inMemory : Bool) :
    (s.step (.reopen inMemory)).Holds P := by
  cases inMemory with
  | true =>
    simp only [step, if_true, open?_none]
    exact Holds.fresh hempty
  | false => exact h.reopen_file

/-- An event keeps what holds if its request or its insertion does, should it be one. -/
theorem Holds.step (hempty : P .empty) {event : Event}
    (hrequest : ∀ r, event = .request r → (s.after r).Holds P)
    (hinsert : ∀ now e cells, event = .insert now e cells →
      (finalState (insertCells now e cells s)).Holds P)
    (h : s.Holds P) : (s.step event).Holds P := by
  cases event with
  | request r => exact hrequest r rfl
  | insert now e cells => exact hinsert now e cells rfl
  | startTransaction => exact h.startTransaction
  | commit => exact h.commit
  | rollback => exact h.rollback
  | reopen inMemory => exact h.reopen hempty inMemory

/-- What every event of a run keeps holds after the run. -/
theorem Holds.steps {run : List Event}
    (hstep : ∀ event ∈ run, ∀ s : Session, s.Holds P → (s.step event).Holds P) (h : s.Holds P) :
    (s.steps run).Holds P := by
  induction run generalizing s with
  | nil => exact h
  | cons event run ih =>
    refine ih (fun later hlater => hstep later (List.mem_cons_of_mem _ hlater)) ?_
    exact hstep event List.mem_cons_self s h

/-- **What the changes keep holds after every run.** -/
theorem holds_steps (hkeep : ∀ s t, Store.Change s t → P s → P t) (hempty : P .empty)
    (run : List Event)
    (hinsert : ∀ event ∈ run, event.isDirect = true →
      ∀ s t, Store.Growth Store.Arbitrary s t → P s → P t) :
    (fresh.steps run).Holds P := by
  refine Holds.steps (fun event hevent s h => ?_) (Holds.fresh hempty)
  refine h.step hempty (fun r _ => h.after hkeep r) fun now e cells heq => ?_
  have hdirect : event.isDirect = true := by rw [heq]; rfl
  exact h.write (keeps_of_via (hinsert event hevent hdirect) (Action.via_insertCells now e cells)) _

/-- What the requests of a run keep holds after the run, if nothing is inserted directly. -/
theorem holds_steps_of_requests (hempty : P .empty) {run : List Event}
    (hdirect : ∀ event ∈ run, event.isDirect = false)
    (hrequest : ∀ r, .request r ∈ run → ∀ s : Session, s.Holds P → (s.after r).Holds P) :
    (fresh.steps run).Holds P := by
  refine Holds.steps (fun event hevent s h => ?_) (Holds.fresh hempty)
  refine h.step hempty (fun r heq => hrequest r (heq ▸ hevent) s h) fun now e cells heq => ?_
  have := hdirect event hevent
  rw [heq] at this
  cases this

end Session

/-! ## The two invariants -/

namespace Store

variable {s t : Store}

theorem Coherent.growth {Allowed : Store → (e : Entity) → Row e → Prop} (h : s.Coherent)
    (hgrowth : Growth Allowed s t) : t.Coherent := by
  cases hgrowth with
  | add hok _ => exact h.add hok
  | spend _ => exact h.spendId _

theorem Coherent.change (h : s.Coherent) (hchange : Change s t) : t.Coherent := by
  cases hchange with
  | grow hgrowth => exact h.growth hgrowth
  | remove _ => exact h.without _

/-- What the checks of the writing operations add to coherence. -/
structure Tidy (s : Store) : Prop where
  last_nonneg : ∀ e, 0 ≤ (s.table e).last
  id_pos : ∀ e, ∀ r ∈ s.rows e, 0 < Row.id e r
  proper : ∀ e, ∀ r ∈ s.rows e, Row.Proper e r

theorem Tidy.empty : Tidy .empty := by
  have h : ∀ e, Store.empty.rows e = [] := fun e => by cases e <;> rfl
  refine ⟨fun e => by cases e <;> decide, ?_, ?_⟩
  all_goals intro e r hr; rw [h] at hr; cases hr

theorem Tidy.growth (h : s.Tidy) (hgrowth : Growth Regular s t) : t.Tidy := by
  cases hgrowth with
  | @add e r hok hregular =>
    obtain ⟨hnext, hproper⟩ := hregular
    have hlast := h.last_nonneg e
    have hid := (nextId?_eq_some_iff.1 hnext).2
    refine ⟨fun f => ?_, fun f q hq => ?_, fun f q hq => ?_⟩
    · have := h.last_nonneg f
      rw [last_add]
      split <;> omega
    · rcases mem_rows_add.1 hq with hq | hq
      · exact h.id_pos f q hq
      · cases hq; omega
    · rcases mem_rows_add.1 hq with hq | hq
      · exact h.proper f q hq
      · cases hq; exact hproper
  | @spend e id hnext =>
    refine ⟨fun f => ?_, fun f q hq => ?_, fun f q hq => ?_⟩
    · have he := h.last_nonneg e
      have hf := h.last_nonneg f
      rw [last_spendId]
      split <;> omega
    · rw [rows_spendId] at hq; exact h.id_pos f q hq
    · rw [rows_spendId] at hq; exact h.proper f q hq

theorem Tidy.change (h : s.Tidy) (hchange : Change s t) : t.Tidy := by
  cases hchange with
  | grow hgrowth => exact h.growth hgrowth
  | remove _ =>
    refine ⟨fun f => ?_, fun f q hq => ?_, fun f q hq => ?_⟩
    · rw [last_without]; exact h.last_nonneg f
    · exact h.id_pos f q (mem_rows_without.1 hq).1
    · exact h.proper f q (mem_rows_without.1 hq).1

end Store

theorem Session.coherent_steps (run : List Event) : (fresh.steps run).Holds Store.Coherent :=
  holds_steps (fun _ _ hchange h => h.change hchange) .empty run fun _ _ _ _ _ hgrowth h =>
    h.growth hgrowth

theorem Session.tidy_steps {run : List Event} (hrun : ∀ event ∈ run, event.isDirect = false) :
    (fresh.steps run).Holds Store.Tidy :=
  holds_steps (fun _ _ hchange h => h.change hchange) .empty run fun event hevent hdirect => by
    rw [hrun event hevent] at hdirect; cases hdirect

/-! ## Column by column -/

namespace Store

/-- The rules of the schema that hold for every row of every table. -/
structure Consistent (s : Store) : Prop where
  keys : ∀ e, ((s.rows e).map (Row.id e)).Nodup
  foreignKeys : ∀ parent child, s.Child parent child → s.has parent = true
  usernames : (s.users.rows.map User.username).Nodup
  archNames : (s.arches.rows.map Arch.name).Nodup
  hostnames : (s.hosts.rows.map Host.hostname).Nodup

/-- What the checks of the writing operations guarantee of each column. -/
structure Checked (s : Store) : Prop where
  ids : ∀ e, ∀ r ∈ s.rows e, 0 < Row.id e r ∧ Row.id e r ≤ (s.table e).last
  username : ∀ u ∈ s.users.rows, u.username.Fits Limit.username
  archName : ∀ a ∈ s.arches.rows, a.name.Fits Limit.archName
  hostname : ∀ h ∈ s.hosts.rows, h.hostname.Fits Limit.hostname
  fuzzerHost : ∀ b ∈ s.batches.rows, b.fuzzerHost.Fits Limit.fuzzerHost
  opcodeName : ∀ o ∈ s.opcodes.rows, o.name.Fits Limit.opcodeName
  pretty : ∀ f ∈ s.failures.rows, f.pretty.Fits Limit.failurePretty
  location : ∀ d ∈ s.states.rows, d.location.Fits Limit.stateLocation
  expected : ∀ d ∈ s.states.rows, d.expected.Fits Limit.stateValue
  actual : ∀ d ∈ s.states.rows, d.actual.Fits Limit.stateValue
  count : ∀ t ∈ s.successes.rows,
    ∃ n, t.count = .int n ∧ Int32.minValue.toInt ≤ n ∧ n ≤ Int32.maxValue.toInt
  submittedAt : ∀ b ∈ s.batches.rows,
    ∃ (text : String) (time : Timestamp), b.submittedAt = text ∧ Timestamp.parse? text = some time

variable {s : Store}

theorem Coherent.nodup_names (h : s.Coherent) {e : Entity} {name : Row e → TextCell}
    (hname : ∀ r, Row.uniqueName? e r = some (name r)) : ((s.rows e).map name).Nodup := by
  have hrows : (s.rows e).Nodup := List.Nodup.of_map _ (h.ascending e).nodup_ids
  refine List.Nodup.map_on (fun a ha b hb hab => ?_) hrows
  exact h.names e a ha b hb (name a) (hname a) (by rw [hname b, hab])

theorem Coherent.consistent (h : s.Coherent) : s.Consistent where
  keys e := (h.ascending e).nodup_ids
  foreignKeys := by
    rintro parent ⟨e, id⟩ hchild
    obtain ⟨r, hr, -, href⟩ := child_iff.1 hchild
    exact h.parents e r hr parent href
  usernames := h.nodup_names (e := .user) fun _ => rfl
  archNames := h.nodup_names (e := .arch) fun _ => rfl
  hostnames := h.nodup_names (e := .host) fun _ => rfl

theorem Tidy.checked (h : s.Tidy) (hcoherent : s.Coherent) : s.Checked := by
  have hfits : ∀ e, ∀ r ∈ s.rows e, ∀ b ∈ Row.boundedTexts e r, b.text.Fits b.limit :=
    fun e r hr => (h.proper e r hr).fits
  constructor
  case ids => exact fun e r hr => ⟨h.id_pos e r hr, hcoherent.id_le_last e r hr⟩
  case count =>
    intro t ht
    obtain ⟨item, hitem⟩ := (h.proper .testSuccess t ht).readable
    rw [StoredSuccess.read_eq_ok_iff.1 hitem]
    exact ⟨_, rfl, item.count.minValue_le_toInt, item.count.toInt_le⟩
  case submittedAt =>
    intro b hb
    obtain ⟨item, hitem⟩ := (h.proper .batch b hb).readable
    obtain ⟨time, rfl, htime⟩ := StoredBatch.read_eq_ok_iff.1 hitem
    exact ⟨time, _, rfl, htime⟩
  case username => exact fun r hr => hfits .user r hr _ List.mem_cons_self
  case archName => exact fun r hr => hfits .arch r hr _ List.mem_cons_self
  case hostname => exact fun r hr => hfits .host r hr _ List.mem_cons_self
  case fuzzerHost => exact fun r hr => hfits .batch r hr _ List.mem_cons_self
  case opcodeName => exact fun r hr => hfits .opcode r hr _ List.mem_cons_self
  case pretty => exact fun r hr => hfits .testFailure r hr _ List.mem_cons_self
  case location => exact fun r hr => hfits .testFailureState r hr _ List.mem_cons_self
  case expected =>
    exact fun r hr => hfits .testFailureState r hr _ (List.mem_cons_of_mem _ List.mem_cons_self)
  case actual =>
    exact fun r hr => hfits .testFailureState r hr _
      (List.mem_cons_of_mem _ (List.mem_cons_of_mem _ List.mem_cons_self))

end Store

/-- **The tables after every run.**  Whatever happens to a session on a new ledger, there are
tables, and they keep the rules of the schema; if nothing was inserted directly, every column also
keeps to what the writing operations check. -/
theorem Session.tables_after_run (run : List Event) :
    ∃ store, (fresh.steps run).image.tables = some store ∧ store.Consistent ∧
      ((∀ event ∈ run, event.isDirect = false) → store.Checked) := by
  obtain ⟨-, store, htables, hcoherent⟩ := (coherent_steps run).image
  refine ⟨store, htables, hcoherent.consistent, fun hrun => ?_⟩
  obtain ⟨-, store', htables', htidy⟩ := (tidy_steps hrun).image
  rw [htables] at htables'
  cases htables'
  exact htidy.checked hcoherent

/-- A report is recorded, the deletion of its batch is rolled back, and the ledger is reopened. -/
def Session.recordedRun : List Event :=
  [.request (.record .epoch oneSuccess), .startTransaction, .request (.delete .batch 1), .rollback,
   .reopen false]

theorem Session.tables_after_recordedRun :
    ∃ store, (fresh.steps recordedRun).image.tables = some store ∧ store.Consistent ∧
      store.Checked ∧ store.count .testSuccess = 1 := by
  obtain ⟨store, htables, hconsistent, hchecked⟩ := tables_after_run recordedRun
  refine ⟨store, htables, hconsistent, hchecked (by decide), ?_⟩
  cases htables
  rfl

end FuzzLedger
