import FuzzLedger.Proofs.Atomicity
import FuzzLedger.Proofs.Identifiers

/-!
# What is printed as JSON says what was done

In JSON format every record is printed as one line (`JsonLine`), whatever the texts of the ledger
hold, and the lines can be read back: as the row that was created, as the summary of each file taken
in, as all batches, or as a batch with all that hangs off it.

* `BatchView.spells` — a batch is printed with sorted keys, and a failure with its states in one
  object; still every part is read back from its own members.
* `CreateCommand.perform_ok` — a creating command makes one request (`CreateCommand.request?`) and
  prints the row that it answers, which then is a row of the ledger.
* `Command.Reports` — what the lines of each command are to say.
* `json_output` — every successful run on a ledger that some run has left.
-/

set_option autoImplicit false

namespace FuzzLedger

open Json

/-! ## Lines -/

/-- A text without line breaks that is one JSON value and nothing else. -/
structure JsonLine (line : String) : Prop where
  unbroken : '\n' ∉ line.toList
  noFault : (Document.ofText line).root.readStop maxLevels = none
  complete : (Document.ofText line).trailing = false

theorem JsonLine.of_writable {depth : Nat} {v : Value} (h : Writable depth v)
    (hdepth : depth ≤ maxLevels) : JsonLine v.render where
  unbroken := h.newline_not_mem_render
  noFault := by
    rw [h.ofText_render]
    exact h.readStop_toTree maxLevels hdepth
  complete := by rw [h.ofText_render]

/-- The text is these lines, each a JSON value. -/
structure PrintsLines (stdout : String) (lines : List String) : Prop where
  stdout_eq : stdout = String.join (lines.map (· ++ "\n"))
  json : ∀ line ∈ lines, JsonLine line

theorem PrintsLines.single {depth : Nat} {v : Value} (h : Writable depth v)
    (hdepth : depth ≤ maxLevels) : PrintsLines (v.render ++ "\n") [v.render] where
  stdout_eq := by simp [String.join]
  json := List.forall_mem_singleton.2 (.of_writable h hdepth)

/-! ## A batch with all that hangs off it -/

/-- A failure and its states from one object. -/
def FailureView.readJson : Reader FailureView := fun source room t => do
  let failure ← TestFailure.readJson source room t
  let states ← member "states" (readList TestFailureState.readJson) source room t
  return ⟨failure, states⟩

/-- A batch with its host, its user and its results, each from its own member. -/
def BatchView.readJson : Reader BatchView := fun source room t => do
  let batch ← member "batch" Batch.readJson source room t
  let host ← member "testing_host" Host.readJson source room t
  let user ← member "user" User.readJson source room t
  let successes ← member "successes" (readList TestSuccess.readJson) source room t
  let failures ← member "failures" (readList FailureView.readJson) source room t
  return ⟨batch, host, user, successes, failures⟩

theorem spells_items {e : Entity} {xs : List (Item e)}
    (h : ∀ x ∈ xs, ∀ n ∈ Item.ids e x, IsId n) :
    Spells (.arr (xs.map (Item.toJson e))) (readList (Item.readJson e)) 2 xs := by
  have hlist := spells_list (f := id) fun x hx => Item.spells e x (h x hx)
  rwa [List.map_id] at hlist

namespace FailureView

/-- The identifiers of a failure and of its states have 64 bits. -/
structure InRange (v : FailureView) : Prop where
  failure : ∀ n ∈ Item.ids .testFailure v.failure, IsId n
  states : ∀ d ∈ v.states, ∀ n ∈ Item.ids .testFailureState d, IsId n

/-- The members of a failure and of its states in one object. -/
def members (v : FailureView) : List (String × Value) :=
  [("id", .int v.failure.id), ("batch_id", .int v.failure.batchId),
   ("opcode_id", .int v.failure.opcodeId), ("pretty", .text v.failure.pretty),
   ("arguments", .text v.failure.arguments),
   ("states", .arr (v.states.map TestFailureState.toJson))]

theorem toJson_eq (v : FailureView) : v.toJson = .obj v.members := rfl

theorem nodup_keys (v : FailureView) : (v.members.map Prod.fst).Nodup := by
  show ["id", "batch_id", "opcode_id", "pretty", "arguments", "states"].Nodup
  decide

/-- The states stand beside the failure and hide none of its members. -/
theorem spells {v : FailureView} (h : v.InRange) : Spells v.toJson FailureView.readJson 3 v := by
  obtain ⟨hfailure, hstates⟩ := h
  have hlist : Spells (.arr (v.states.map TestFailureState.toJson))
      (readList TestFailureState.readJson) 2 v.states :=
    spells_items (e := .testFailureState) hstates
  simp only [Item.ids, List.forall_mem_cons] at hfailure
  obtain ⟨hid, hbatch, hopcode, -⟩ := hfailure
  have hwritable : ∀ m ∈ v.members, Writable 2 m.2 := by
    simp only [members, List.forall_mem_cons]
    exact ⟨.int hid.isWord, .int hbatch.isWord, .int hopcode.isWord, .text _, .text _,
      hlist.writable, by simp⟩
  have hown : Spells (.obj v.members) TestFailure.readJson 3 v.failure := by
    refine .andThen (x := (v.failure.id, v.failure.batchId, v.failure.opcodeId, v.failure.pretty,
      v.failure.arguments, ())) (spells_among _ ?_ v.nodup_keys (by decide) hwritable) rfl
    exact .cons (spells_id hid) (.cons (spells_id hbatch) (.cons (spells_id hopcode)
      (.cons (spells_text _) (.cons (spells_text _) .nil))))
  have hbeside : Spells (.obj v.members) (member "states" (readList TestFailureState.readJson)) 3
      v.states :=
    spells_member (by simp [members]) hlist v.nodup_keys hwritable
  rw [toJson_eq]
  exact hown.bind (hbeside.andThen rfl)

end FailureView

namespace BatchView

/-- The identifiers of everything in the view have 64 bits. -/
structure InRange (v : BatchView) : Prop where
  batch : ∀ n ∈ Item.ids .batch v.batch, IsId n
  host : ∀ n ∈ Item.ids .host v.host, IsId n
  user : ∀ n ∈ Item.ids .user v.user, IsId n
  successes : ∀ x ∈ v.successes, ∀ n ∈ Item.ids .testSuccess x, IsId n
  failures : ∀ f ∈ v.failures, f.InRange

/-- The members of a batch with all that hangs off it. -/
def members (v : BatchView) : List (String × Value) :=
  [("batch", v.batch.toJson), ("testing_host", v.host.toJson), ("user", v.user.toJson),
   ("successes", .arr (v.successes.map TestSuccess.toJson)),
   ("failures", .arr (v.failures.map FailureView.toJson))]

theorem toJson_eq (v : BatchView) : v.toJson = (Value.obj v.members).arranged true := rfl

theorem nodup_keys (v : BatchView) : (v.members.map Prod.fst).Nodup := by
  show ["batch", "testing_host", "user", "successes", "failures"].Nodup
  decide

/-- **Every part of the view is read back from its own member.** -/
theorem spells {v : BatchView} (h : v.InRange) :
    Spells (.obj v.members) BatchView.readJson 5 v := by
  have hbatch : Spells v.batch.toJson Batch.readJson 4 v.batch :=
    (Item.spells .batch v.batch h.batch).mono (by omega)
  have hhost : Spells v.host.toJson Host.readJson 4 v.host :=
    (Item.spells .host v.host h.host).mono (by omega)
  have huser : Spells v.user.toJson User.readJson 4 v.user :=
    (Item.spells .user v.user h.user).mono (by omega)
  have hsuccesses : Spells (.arr (v.successes.map TestSuccess.toJson))
      (readList TestSuccess.readJson) 4 v.successes :=
    (spells_items (e := .testSuccess) h.successes).mono (by omega)
  have hfailures : Spells (.arr (v.failures.map FailureView.toJson))
      (readList FailureView.readJson) 4 v.failures := by
    have hlist := spells_list (f := id) fun f hf => FailureView.spells (h.failures f hf)
    rwa [List.map_id] at hlist
  have hwritable : ∀ m ∈ v.members, Writable 4 m.2 := by
    simp only [members, List.forall_mem_cons]
    exact ⟨hbatch.writable, hhost.writable, huser.writable, hsuccesses.writable,
      hfailures.writable, by simp⟩
  have hmember {α : Type} {key : String} {read : Reader α} {w : Value} {x : α}
      (hmem : (key, w) ∈ v.members) (hspells : Spells w read 4 x) :
      Spells (.obj v.members) (member key read) 5 x :=
    spells_member hmem hspells v.nodup_keys hwritable
  exact (hmember (by simp [members]) hbatch).bind ((hmember (by simp [members]) hhost).bind
    ((hmember (by simp [members]) huser).bind ((hmember (by simp [members]) hsuccesses).bind
      ((hmember (by simp [members]) hfailures).andThen rfl))))

end BatchView

/-! ## Reading the ledger -/

namespace Store

variable {s : Store} {e : Entity}

theorem mem_of_readAll {rows : List (Row e)} {items : List (Item e)}
    (h : readAll e rows = .ok items) : ∀ x ∈ items, ∃ r ∈ rows, Row.read e r = .ok x := by
  induction rows generalizing items with
  | nil =>
    cases h
    intro x hx
    cases hx
  | cons r rows ih =>
    obtain ⟨item, hitem, h⟩ := bind_ok h
    obtain ⟨rest, hrest, h⟩ := bind_ok h
    cases h
    intro x hx
    rcases List.mem_cons.1 hx with rfl | hx
    · exact ⟨r, List.mem_cons_self, hitem⟩
    · obtain ⟨q, hq, hread⟩ := ih hrest x hx
      exact ⟨q, List.mem_cons_of_mem _ hq, hread⟩

theorem Sized.isId_of_readAll (h : s.Sized) {rows : List (Row e)} (hrows : ∀ r ∈ rows, r ∈ s.rows e)
    {items : List (Item e)} (hitems : readAll e rows = .ok items) :
    ∀ x ∈ items, ∀ n ∈ Item.ids e x, IsId n := by
  intro x hx
  obtain ⟨r, hr, hread⟩ := mem_of_readAll hitems x hx
  exact h.isId_ids (hrows r hr) hread

theorem Sized.isId_of_get (h : s.Sized) {id : Int} {x : Item e} (hx : s.get e id = .ok x) :
    ∀ n ∈ Item.ids e x, IsId n := by
  unfold Store.get at hx
  split at hx
  · rename_i r hr
    exact h.isId_ids (List.mem_of_find?_eq_some hr) hx
  · cases hx

/-- The view is what the queries for a batch give. -/
structure Shows (s : Store) (id : Int) (v : BatchView) : Prop where
  batch : s.get .batch id = .ok v.batch
  host : s.get .host v.batch.testingHostId = .ok v.host
  user : s.get .user v.batch.userId = .ok v.user
  successes : s.successesForBatch id = .ok v.successes
  failures : s.failuresForBatch id = .ok (v.failures.map FailureView.failure)
  states : ∀ f ∈ v.failures, s.statesForFailure f.failure.id = .ok f.states

theorem viewFailures_ok {failures : List TestFailure} {views : List FailureView}
    (h : s.viewFailures failures = .ok views) :
    views.map FailureView.failure = failures ∧
      ∀ f ∈ views, s.statesForFailure f.failure.id = .ok f.states := by
  induction failures generalizing views with
  | nil =>
    cases h
    exact ⟨rfl, by simp⟩
  | cons f failures ih =>
    obtain ⟨states, hstates, h⟩ := bind_ok h
    obtain ⟨rest, hrest, h⟩ := bind_ok h
    cases h
    obtain ⟨hmap, hall⟩ := ih hrest
    exact ⟨by rw [List.map_cons, hmap], List.forall_mem_cons.2 ⟨hstates, hall⟩⟩

theorem shows_of_viewBatch {id : Int} {v : BatchView} (h : s.viewBatch id = .ok v) :
    s.Shows id v := by
  obtain ⟨batch, hbatch, h⟩ := bind_ok h
  obtain ⟨host, hhost, h⟩ := bind_ok h
  obtain ⟨user, huser, h⟩ := bind_ok h
  obtain ⟨successes, hsuccesses, h⟩ := bind_ok h
  obtain ⟨failures, hfailures, h⟩ := bind_ok h
  obtain ⟨views, hviews, h⟩ := bind_ok h
  cases h
  obtain ⟨rfl, hstates⟩ := viewFailures_ok hviews
  exact ⟨hbatch, hhost, huser, hsuccesses, hfailures, hstates⟩

theorem Sized.inRange_of_shows (h : s.Sized) {id : Int} {v : BatchView} (hshows : s.Shows id v) :
    v.InRange where
  batch := h.isId_of_get hshows.batch
  host := h.isId_of_get hshows.host
  user := h.isId_of_get hshows.user
  successes := h.isId_of_readAll (fun _ hr => List.mem_of_mem_filter hr) hshows.successes
  failures f hf := by
    have hfailures := h.isId_of_readAll (fun _ hr => List.mem_of_mem_filter hr) hshows.failures
    refine ⟨hfailures f.failure (List.mem_map_of_mem hf), ?_⟩
    exact h.isId_of_readAll (fun _ hr => List.mem_of_mem_filter hr) (hshows.states f hf)

end Store

/-! ## Creating rows -/

namespace Session

variable {α β : Type} {s t : Session} {store : Store}

theorem query_eq_ok {e : Entity} {read : Store → Except Fault α} {x : α}
    (htables : s.image.tables = some store) (h : query e read s = .ok x t) :
    read store = .ok x ∧ t = s := by
  rw [query_eq htables] at h
  cases hread : read store with
  | ok y =>
    rw [hread] at h
    cases h
    exact ⟨rfl, rfl⟩
  | error fault =>
    rw [hread] at h
    cases h

theorem namedRow_eq_ok {e : Entity} {name : String} {x : Item e}
    (htables : s.image.tables = some store) (h : namedRow e name s = .ok x t) :
    store.findNamed? e name = .ok (some x) ∧ t = s := by
  obtain ⟨hread, ht⟩ := query_eq_ok htables h
  refine ⟨?_, ht⟩
  split at hread
  · rename_i hfound
    cases hread
    exact hfound
  · cases hread
  · cases hread

theorem map_eq_ok {call : Call α} {x : α} (h : call s = .ok x t) (f : α → β) :
    (do return f (← call) : Call β) s = .ok (f x) t := by
  simp only [Bind.bind, EStateM.bind, h]
  rfl

/-- The item is how a row of the tables is read. -/
def HasItem (s : Session) (e : Entity) (x : Item e) : Prop :=
  ∃ store r, s.image.tables = some store ∧ r ∈ store.rows e ∧ Row.read e r = .ok x

/-- A call that adds a row answers a row of the tables. -/
theorem hasItem_of_tables {e : Entity} {a : Action (Item e)} {x : Item e}
    (hadds : ∀ store', a store = .ok x store' → ∃ r ∈ store'.rows e, Row.read e r = .ok x)
    (h : ∃ store', a store = .ok x store' ∧ t.image.tables = some store') : t.HasItem e x := by
  obtain ⟨store', ha, htables'⟩ := h
  obtain ⟨r, hr, hread⟩ := hadds store' ha
  exact ⟨store', r, htables', hr, hread⟩

theorem Holds.isId_of_hasItem (h : s.Holds Store.Sized) {e : Entity} {x : Item e}
    (hx : s.HasItem e x) : ∀ n ∈ Item.ids e x, IsId n := by
  obtain ⟨-, store, htables, hsized⟩ := h.image
  obtain ⟨store', r, htables', hr, hread⟩ := hx
  rw [htables] at htables'
  cases htables'
  exact hsized.isId_ids hr hread

end Session

/-- The row with a name, if it is there and can be read. -/
def Store.named? (s : Store) (e : Entity) (name : String) : Option (Item e) :=
  (s.findNamed? e name).toOption.join

theorem Store.named?_eq_some {s : Store} {e : Entity} {name : String} {x : Item e}
    (h : s.findNamed? e name = .ok (some x)) : s.named? e name = some x := by
  rw [named?, h]
  rfl

/-- The request that a creating command comes to: names are replaced by the identifiers of their
rows. -/
def CreateCommand.request? (now : Stamp) (s : Store) : CreateCommand → Option Request
  | .user username => some (.createUser username)
  | .arch name => some (.createArch name)
  | .host hostname archName => do
    let a : Arch ← s.named? .arch archName
    return .createHost hostname a.id
  | .opcode name archName => do
    let a : Arch ← s.named? .arch archName
    return .createOpcode name a.id
  | .batch fuzzerHost testingHost username => do
    let h : Host ← s.named? .host testingHost
    let u : User ← s.named? .user username
    return .createBatch now ⟨fuzzerHost, h.id, u.id⟩
  | .success batchId opcodeId count => some (.addTestSuccess batchId opcodeId count)
  | .failure batchId opcodeId pretty arguments =>
    some (.addTestFailure ⟨batchId, opcodeId, pretty, arguments⟩)
  | .state failureId location expected actual =>
    some (.addTestFailureState ⟨failureId, location, expected, actual⟩)

namespace Action

variable {s t : Store}

/-- What is answered when a row was added is how that row is read. -/
theorem row_of_insertNew {e : Entity} {build : Int → Row e} {f : Row e → Item e} {x : Item e}
    (hid : ∀ id, Row.id e (build id) = id)
    (hread : ∀ id, Row.read e (build id) = .ok (f (build id))) (h : s.Coherent)
    (hok : (do return f (← insertNew e build) : Action (Item e)) s = .ok x t) :
    ∃ r ∈ t.rows e, Row.read e r = .ok x := by
  obtain ⟨row, s', hinsert, hret⟩ := bind_eq_ok hok
  cases hret
  obtain ⟨happ, hbuild⟩ := insertNew_ok hid h hinsert
  refine ⟨row, happ.mem_self, ?_⟩
  rw [hbuild]
  exact hread _

theorem row_of_createBatch {now : Stamp} {b : NewBatch} {batch : Batch} (h : s.Coherent)
    (hok : createBatch now b s = .ok batch t) :
    ∃ r ∈ t.rows .batch, Row.read .batch r = .ok batch := by
  refine row_of_insertNew (fun _ => rfl) (fun id => ?_) h (checkLength_bind_eq_ok hok).2
  exact StoredBatch.read_stamped id b.testingHostId b.userId b.fuzzerHost now

theorem row_of_addTestSuccess {batchId opcodeId : Int} {count : Int32} {x : TestSuccess}
    (h : s.Coherent) (hok : addTestSuccess batchId opcodeId count s = .ok x t) :
    ∃ r ∈ t.rows .testSuccess, Row.read .testSuccess r = .ok x := by
  refine row_of_insertNew (fun _ => rfl) (fun id => ?_) h hok
  exact TestSuccess.read_stored ⟨id, batchId, opcodeId, count⟩

end Action

open Session in
/-- **A creating command prints the row that its request answers**, which is a row of the ledger
then. -/
theorem CreateCommand.perform_ok {row : CreateCommand} {now : Stamp} {s t : Session} {store : Store}
    {record : Record} (htables : s.image.tables = some store) (hcoherent : store.Coherent)
    (hok : row.perform now s = .ok record t) :
    ∃ request e x, row.request? now store = some request ∧
      Session.perform request s = .ok (.item e x) t ∧
      record.json = Item.toJson e x ∧ t.HasItem e x := by
  cases row with
  | user username =>
    obtain ⟨u, t', hcreate, hret⟩ := bind_eq_ok hok
    cases hret
    refine ⟨_, .user, u, rfl, map_eq_ok hcreate _, rfl, ?_⟩
    refine hasItem_of_tables (fun store' ha => ?_) (write_eq_ok htables hcreate)
    exact Action.row_of_insertNew (fun _ => rfl) (fun _ => rfl) hcoherent
      (Action.checkLength_bind_eq_ok ha).2
  | arch name =>
    obtain ⟨a, t', hcreate, hret⟩ := bind_eq_ok hok
    cases hret
    refine ⟨_, .arch, a, rfl, map_eq_ok hcreate _, rfl, ?_⟩
    refine hasItem_of_tables (fun store' ha => ?_) (write_eq_ok htables hcreate)
    exact Action.row_of_insertNew (fun _ => rfl) (fun _ => rfl) hcoherent
      (Action.checkLength_bind_eq_ok ha).2
  | host hostname archName =>
    obtain ⟨a, s', harch, hthen⟩ := bind_eq_ok hok
    obtain ⟨hfound, rfl⟩ := namedRow_eq_ok htables harch
    obtain ⟨h, t', hcreate, hret⟩ := bind_eq_ok hthen
    cases hret
    refine ⟨_, .host, h, bind_of_eq_some (Store.named?_eq_some hfound) _, map_eq_ok hcreate _, rfl,
      ?_⟩
    refine hasItem_of_tables (fun store' ha => ?_) (write_eq_ok htables hcreate)
    exact Action.row_of_insertNew (fun _ => rfl) (fun _ => rfl) hcoherent
      (Action.checkLength_bind_eq_ok ha).2
  | opcode name archName =>
    obtain ⟨a, s', harch, hthen⟩ := bind_eq_ok hok
    obtain ⟨hfound, rfl⟩ := namedRow_eq_ok htables harch
    obtain ⟨o, t', hcreate, hret⟩ := bind_eq_ok hthen
    cases hret
    refine ⟨_, .opcode, o, bind_of_eq_some (Store.named?_eq_some hfound) _, map_eq_ok hcreate _,
      rfl, ?_⟩
    refine hasItem_of_tables (fun store' ha => ?_) (write_eq_ok htables hcreate)
    exact Action.row_of_insertNew (fun _ => rfl) (fun _ => rfl) hcoherent
      (Action.checkLength_bind_eq_ok ha).2
  | batch fuzzerHost testingHost username =>
    obtain ⟨h, s', hhost, hthen⟩ := bind_eq_ok hok
    obtain ⟨hfound, rfl⟩ := namedRow_eq_ok htables hhost
    obtain ⟨u, s'', huser, hlast⟩ := bind_eq_ok hthen
    obtain ⟨hfound', rfl⟩ := namedRow_eq_ok htables huser
    obtain ⟨b, t', hcreate, hret⟩ := bind_eq_ok hlast
    cases hret
    have hrequest : request? now store (.batch fuzzerHost testingHost username) =
        some (.createBatch now ⟨fuzzerHost, h.id, u.id⟩) := by
      refine (bind_of_eq_some (Store.named?_eq_some hfound) _).trans ?_
      exact bind_of_eq_some (Store.named?_eq_some hfound') _
    refine ⟨_, .batch, b, hrequest, map_eq_ok hcreate _, rfl, ?_⟩
    exact hasItem_of_tables (fun store' ha => Action.row_of_createBatch hcoherent ha)
      (act_eq_ok htables hcreate)
  | success batchId opcodeId count =>
    obtain ⟨x, t', hcreate, hret⟩ := bind_eq_ok hok
    cases hret
    refine ⟨_, .testSuccess, x, rfl, map_eq_ok hcreate _, rfl, ?_⟩
    exact hasItem_of_tables (fun store' ha => Action.row_of_addTestSuccess hcoherent ha)
      (write_eq_ok htables hcreate)
  | failure batchId opcodeId pretty arguments =>
    obtain ⟨f, t', hcreate, hret⟩ := bind_eq_ok hok
    cases hret
    refine ⟨_, .testFailure, f, rfl, map_eq_ok hcreate _, rfl, ?_⟩
    refine hasItem_of_tables (fun store' ha => ?_) (write_eq_ok htables hcreate)
    exact ⟨f.stored, (Action.addTestFailure_ok hcoherent ha).1.mem_self, rfl⟩
  | state failureId location expected actual =>
    obtain ⟨d, t', hcreate, hret⟩ := bind_eq_ok hok
    cases hret
    refine ⟨_, .testFailureState, d, rfl, map_eq_ok hcreate _, rfl, ?_⟩
    refine hasItem_of_tables (fun store' ha => ?_) (write_eq_ok htables hcreate)
    exact ⟨d.stored, (Action.addTestFailureState_ok hcoherent ha).1.mem_self, rfl⟩

/-! ## Whole runs -/

/-- What the lines that a command prints say, where the database that it was run on has the given
tables. -/
inductive Command.Reports (d : Directory) (clock : Clock) (o : Opened) (store : Store) :
    Command → List String → Prop where
  | init (line : String) : Reports d clock o store .init [line]
  | create {row : CreateCommand} {request : Request} {e : Entity} {x : Item e} {t : Session}
      {line : String} :
      row.request? (clock 0) store = some request →
      Session.perform request o.session = .ok (.item e x) t →
      readDocument (Item.readJson e) line = .ok x →
      Reports d clock o store (.create row) [line]
  | showBatches {batches : List Batch} {line : String} :
      store.listBatches = .ok batches →
      readDocument (readList Batch.readJson) line = .ok batches →
      Reports d clock o store .showBatches [line]
  | showBatch {id : Int} {v : BatchView} {line : String} :
      store.Shows id v →
      readDocument BatchView.readJson line = .ok v →
      Reports d clock o store (.showBatch id) [line]
  | delete (e : Entity) (id : Int) (line : String) : Reports d clock o store (.delete e id) [line]
  | ingest {files : List IngestedFile} {t : Session} {lines : List String} :
      TakesIn (o.around d) o.obstacle clock 0 files o.session t →
      List.Forall₂ (fun file line => readDocument Summary.readJson line = .ok file.summary)
        files lines →
      Reports d clock o store (.ingest (files.map IngestedFile.path)) lines

section Run

variable {o : Opened} {store : Store}

theorem runCall_ok {output : Output} {format : OutputFormat} {call : Call Record}
    (h : (runCall output format o call).failure = none) :
    ∃ record t, call o.session = .ok record t ∧
      (runCall output format o call).stdout = record.render format := by
  unfold runCall at h ⊢
  cases hcall : call o.session with
  | error f t =>
    rw [hcall] at h
    cases h
  | ok record t =>
    refine ⟨record, t, rfl, ?_⟩
    rw [hcall] at h
    cases hreception : output 0 with
    | taken => simp [emit, Reception.print, Outcome.stdout, String.join]
    | refused length error =>
      rw [hreception] at h
      cases h

theorem writing_eq_ok {α : Type} {obstacle : Option Obstacle} {call : Call α} {s t : Session}
    {x : α} (h : writing obstacle call s = .ok x t) : call s = .ok x t := by
  cases obstacle with
  | none => exact h
  | some obstacle =>
    simp only [writing, refuseWriting] at h
    split at h <;> cases h

theorem writable_initRecord (path : String) {version : Int} (h : IsWord version) :
    Writable 1 (initRecord path version) := by
  have hmembers : ∀ m ∈ [("db", Value.text path), ("schema_version", .int version)],
      Writable 0 m.2 :=
    List.forall_mem_cons.2 ⟨.text path, List.forall_mem_singleton.2 (.int h)⟩
  exact (Writable.obj hmembers).arranged true

theorem writable_deleteRecord (e : Entity) {id : Int} (h : IsWord id) :
    Writable 1 (deleteRecord e id) := by
  have hmembers : ∀ m ∈ [("entity", e.toJson), ("id", .int id), ("deleted", .bool true)],
      Writable 0 m.2 :=
    List.forall_mem_cons.2 ⟨.text _, List.forall_mem_cons.2
      ⟨.int h, List.forall_mem_singleton.2 (.bool true)⟩⟩
  exact (Writable.obj hmembers).arranged true

theorem Store.Sized.isId_of_has (h : store.Sized) {e : Entity} {id : Int}
    (hhas : store.has (e, id) = true) : IsId id := by
  obtain ⟨r, hr, hid⟩ := has_iff.1 hhas
  have hword := h.2.ids e r hr
  rwa [hid] at hword

theorem inRange_of_recordAll {clock : Clock} {reading : Nat} {reports : List Report}
    {summaries : List Summary} {s t : Session} (h : s.Holds Store.Sized)
    (hok : Session.recordAll clock reading reports s = .ok summaries t) :
    ∀ m ∈ summaries, m.InRange := by
  induction reports generalizing reading s summaries with
  | nil =>
    cases hok
    intro m hm
    cases hm
  | cons r reports ih =>
    obtain ⟨m, s', hrecord, hthen⟩ := bind_eq_ok hok
    obtain ⟨rest, u, hrest, hret⟩ := bind_eq_ok hthen
    cases hret
    obtain ⟨hm, hs'⟩ := h.inRange_of_record hrecord
    exact List.forall_mem_cons.2 ⟨hm, ih hs' hrest⟩

/-- The lines of the files that were taken in. -/
theorem printsLines_ingest {d : Directory} {clock : Clock} {files : List IngestedFile} {t : Session}
    (h : o.session.Holds Store.Sized)
    (htaken : TakesIn (o.around d) o.obstacle clock 0 files o.session t) :
    ∃ lines, PrintsLines (String.join (files.map (IngestedFile.printed .json))) lines ∧
      List.Forall₂ (fun file line => readDocument Summary.readJson line = .ok file.summary)
        files lines := by
  have hspells : ∀ file ∈ files, Spells file.summary.toJson Summary.readJson 1 file.summary := by
    intro file hfile
    have hrange := inRange_of_recordAll h htaken.recorded
    exact Summary.spells (hrange file.summary (List.mem_map_of_mem hfile))
  refine ⟨files.map fun file => file.summary.toJson.render, ⟨?_, ?_⟩, ?_⟩
  · rw [List.map_map]
    rfl
  · intro line hline
    obtain ⟨file, hfile, rfl⟩ := List.mem_map.1 hline
    exact .of_writable (hspells file hfile).writable (by decide)
  · rw [List.forall₂_map_right_iff, List.forall₂_same]
    intro file hfile
    exact (hspells file hfile).readDocument_render (by decide) false

/-- What the run of a command prints is lines of JSON, which say what they are to say. -/
def Command.PrintsReport (d : Directory) (clock : Clock) (output : Output) (settings : Settings)
    (o : Opened) (store : Store) (command : Command) : Prop :=
  ∃ lines, PrintsLines (command.runOn d clock output settings o).stdout lines ∧
    command.Reports d clock o store lines

variable {d : Directory} {clock : Clock} {output : Output} {settings : Settings}

theorem printsReport_init (hformat : settings.format = .json)
    (hversion : o.session.image.version = Fault.newestVersion)
    (hsuccess : (Command.init.runOn d clock output settings o).failure = none) :
    Command.init.PrintsReport d clock output settings o store := by
  have hword : IsWord o.session.image.version := by
    rw [hversion]
    exact ⟨by decide, by decide⟩
  obtain ⟨record, t, hcall, hstdout⟩ := runCall_ok hsuccess
  cases hcall
  refine ⟨_, ?_, .init (initRecord settings.dbPath o.session.image.version).render⟩
  rw [Command.runOn, hstdout, hformat]
  exact .single (writable_initRecord settings.dbPath hword) (by decide)

theorem printsReport_create {row : CreateCommand} (hformat : settings.format = .json)
    (hholds : o.session.Holds Store.Sized) (htables : o.session.image.tables = some store)
    (hcoherent : store.Coherent)
    (hsuccess : ((Command.create row).runOn d clock output settings o).failure = none) :
    (Command.create row).PrintsReport d clock output settings o store := by
  obtain ⟨record, t, hcall, hstdout⟩ := runCall_ok hsuccess
  obtain ⟨request, e, x, hrequest, hanswer, hjson, hitem⟩ :=
    CreateCommand.perform_ok htables hcoherent (writing_eq_ok hcall)
  have hspells := Item.spells e x ((hholds.sized_of_perform hanswer).isId_of_hasItem hitem)
  refine ⟨_, ?_, .create hrequest hanswer (hspells.readDocument_render (by decide) false)⟩
  rw [Command.runOn, hstdout, hformat, Record.render, hjson]
  exact .single hspells.writable (by decide)

theorem printsReport_showBatches (hformat : settings.format = .json)
    (htables : o.session.image.tables = some store) (hsized : store.Sized)
    (hsuccess : (Command.showBatches.runOn d clock output settings o).failure = none) :
    Command.showBatches.PrintsReport d clock output settings o store := by
  obtain ⟨record, t, hcall, hstdout⟩ := runCall_ok hsuccess
  obtain ⟨batches, t', hquery, hret⟩ := bind_eq_ok hcall
  cases hret
  obtain ⟨hbatches, -⟩ := Session.query_eq_ok htables hquery
  have hspells : Spells (.arr (batches.map Batch.toJson)) (readList Batch.readJson) 2 batches :=
    spells_items (e := .batch)
      (hsized.isId_of_readAll (fun _ hr => List.mem_mergeSort.1 hr) hbatches)
  refine ⟨_, ?_, .showBatches hbatches (hspells.readDocument_render (by decide) false)⟩
  rw [Command.runOn, hstdout, hformat]
  exact .single hspells.writable (by decide)

theorem printsReport_showBatch {id : Int} (hformat : settings.format = .json)
    (htables : o.session.image.tables = some store) (hsized : store.Sized)
    (hsuccess : ((Command.showBatch id).runOn d clock output settings o).failure = none) :
    (Command.showBatch id).PrintsReport d clock output settings o store := by
  obtain ⟨record, t, hcall, hstdout⟩ := runCall_ok hsuccess
  obtain ⟨v, t', hquery, hret⟩ := bind_eq_ok hcall
  cases hret
  obtain ⟨hview, -⟩ := Session.query_eq_ok htables hquery
  have hshows := Store.shows_of_viewBatch hview
  have hspells := BatchView.spells (hsized.inRange_of_shows hshows)
  refine ⟨_, ?_, .showBatch hshows (hspells.readDocument_render (by decide) true)⟩
  rw [Command.runOn, hstdout, hformat, Record.render, v.toJson_eq]
  exact .single (hspells.writable.arranged true) (by decide)

theorem printsReport_delete {e : Entity} {id : Int} (hformat : settings.format = .json)
    (htables : o.session.image.tables = some store) (hsized : store.Sized)
    (hsuccess : ((Command.delete e id).runOn d clock output settings o).failure = none) :
    (Command.delete e id).PrintsReport d clock output settings o store := by
  obtain ⟨record, t, hcall, hstdout⟩ := runCall_ok hsuccess
  obtain ⟨found, t', hfound, hret⟩ := bind_eq_ok (writing_eq_ok hcall)
  cases found with
  | false => cases hret
  | true =>
    cases hret
    obtain ⟨store', ha, -⟩ := Session.write_eq_ok htables hfound
    have hhas : store.has (e, id) = true := by
      rw [Action.delete_eq] at ha
      split at ha
      · assumption
      · cases ha
    refine ⟨_, ?_, .delete e id (deleteRecord e id).render⟩
    rw [Command.runOn, hstdout, hformat]
    exact .single (writable_deleteRecord e (hsized.isId_of_has hhas).isWord) (by decide)

theorem printsReport_ingest {paths : List String} (hformat : settings.format = .json)
    (hholds : o.session.Holds Store.Sized)
    (hsuccess : ((Command.ingest paths).runOn d clock output settings o).failure = none) :
    (Command.ingest paths).PrintsReport d clock output settings o store := by
  obtain ⟨files, t, printed, failure, htaken, hends⟩ :=
    @exists_ingestEnds (o.around d) o.obstacle settings.format clock output paths 0 o.session
  have hfiles := ingestFiles_eq htaken hends
  simp only [Command.runOn, hfiles] at hsuccess
  subst hsuccess
  cases hends with
  | done htakes =>
    obtain ⟨lines, hprints, hlines⟩ := printsLines_ingest hholds htaken
    refine ⟨lines, ?_, .ingest htaken hlines⟩
    simp only [Command.runOn, hfiles, Outcome.stdout]
    rw [hformat]
    exact hprints

end Run

/-- **What is printed in JSON format is faithful, line by line.**  Let a run with this format
succeed, on a ledger that some run of requests, transactions and direct insertions has left.  Then
its output is one line for each record, every line is a JSON value without line breaks, and the lines
say what was done: the row that was created, the summary of each file, all batches, or the batch that
was asked for with its host, its user, its successes and its failures, each with its states. -/
theorem json_output {i : Invocation} {d : Directory} {o : Opened} {run : List Event} (clock : Clock)
    (output : Output) (hcommand : i.command ≠ .version) (hformat : (i.settings d).format = .json)
    (hopen : openDatabase d (i.settings d) = .ok o)
    (hrun : ∀ event ∈ run, event.FitsWords)
    (hreached : o.session.image = (Session.fresh.steps run).close)
    (hsuccess : (i.run d clock output).failure = none) :
    ∃ lines store, (i.run d clock output).stdout = String.join (lines.map (· ++ "\n")) ∧
      (∀ line ∈ lines, JsonLine line) ∧ o.session.image.tables = some store ∧
      i.command.Reports d clock o store lines := by
  have hholds : o.session.Holds Store.Sized := by
    refine ⟨hreached ▸ (Session.sized_steps hrun).close, fun im him => ?_⟩
    rw [saved_of_openDatabase hopen] at him
    cases him
  obtain ⟨hversion, store, htables, hsized⟩ := hholds.image
  rcases i.run_cases hcommand d clock with ⟨o', hopen', hresult⟩ | ⟨f, hopen', -⟩
  · rw [hopen] at hopen'
    cases hopen'
    rw [hresult] at hsuccess ⊢
    have hreport : i.command.PrintsReport d clock output (i.settings d) o store := by
      cases hcase : i.command with
      | version => exact absurd hcase hcommand
      | init => exact printsReport_init hformat hversion (hcase ▸ hsuccess)
      | create row =>
        exact printsReport_create hformat hholds htables hsized.1 (hcase ▸ hsuccess)
      | showBatch id => exact printsReport_showBatch hformat htables hsized (hcase ▸ hsuccess)
      | showBatches => exact printsReport_showBatches hformat htables hsized (hcase ▸ hsuccess)
      | delete e id => exact printsReport_delete hformat htables hsized (hcase ▸ hsuccess)
      | ingest paths => exact printsReport_ingest hformat hholds (hcase ▸ hsuccess)
    obtain ⟨lines, hprints, hlines⟩ := hreport
    exact ⟨lines, store, hprints.stdout_eq, hprints.json, htables, hlines⟩
  · rw [hopen] at hopen'
    cases hopen'

/-- A report whose texts have line breaks, quotes and other characters that JSON escapes. -/
def awkwardReport : Report :=
  ⟨"fuzz\n\"er\"", "tester", "user", "arch",
   [.success "add" 3, .failure "add" "a\\b\r\n" "" [⟨"x1", "\n", "\x01"⟩]]⟩

/-- It is recorded in a new ledger. -/
def awkwardRun : List Event := [.request (.record .epoch awkwardReport)]

/-- A directory with the ledger. -/
def awkwardShelf : Directory := fun place =>
  if place = {} then .directory
  else if place.names = ["fuzzermon.sqlite3"] then
    .file (.database (Session.fresh.steps awkwardRun).close)
  else .nothing

/-- Shows the batch. -/
def showAwkward : Invocation := { format := some .json, command := .showBatch 1 }

theorem json_output_awkward :
    ∃ line v store, (showAwkward.run awkwardShelf (fun _ => .epoch) .ideal).stdout = line ++ "\n" ∧
      JsonLine line ∧ (Session.fresh.steps awkwardRun).close.tables = some store ∧
      store.Shows 1 v ∧ readDocument BatchView.readJson line = .ok v := by
  have himage : (openDatabase awkwardShelf (showAwkward.settings awkwardShelf)).toOption.map
      (·.session.image) = some (Session.fresh.steps awkwardRun).close := by decide +kernel
  have hsuccess : (showAwkward.run awkwardShelf (fun _ => .epoch) .ideal).failure = none := by
    decide +kernel
  have hfits : ∀ event ∈ awkwardRun, event.FitsWords := List.forall_mem_singleton.2 trivial
  cases hopen : openDatabase awkwardShelf (showAwkward.settings awkwardShelf) with
  | error f =>
    rw [hopen] at himage
    cases himage
  | ok o =>
    rw [hopen] at himage
    have hreached : o.session.image = (Session.fresh.steps awkwardRun).close :=
      Option.some.inj himage
    have hcommand : showAwkward.command ≠ .version := by decide
    have hformat : (showAwkward.settings awkwardShelf).format = .json := by decide +kernel
    obtain ⟨lines, store, hstdout, hlines, htables, hreports⟩ :=
      json_output (fun _ => .epoch) .ideal hcommand hformat hopen hfits hreached hsuccess
    rw [hreached] at htables
    cases hreports with
    | @showBatch _ v line hshows hread =>
      refine ⟨line, v, store, ?_, hlines line List.mem_cons_self, htables, hshows, hread⟩
      rw [hstdout]
      simp [String.join]

end FuzzLedger
