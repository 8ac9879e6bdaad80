import FuzzLedger.Proofs.Identifiers
import FuzzLedger.Proofs.Order
import FuzzLedger.Proofs.Reading

/-!
# Lists by parent take a table apart

Hosts and opcodes are listed by architecture, successes and failures by batch, failure states by
failure.  Each of these five is a `Grouping`: the rows of one table, each under the row of another
table to which it refers.

* `perm_flatMap_filter` — the groups of a list by a key are together the list, if every key is
  listed once.
* `Store.Sound.perm_groups` — so the lists of a grouping, one for each row of the other table, are
  together the table: referential integrity gives every row a group, unique identifiers only one.
* `Store.Sound.count_group` — a row is once in the list of the row that it refers to, and in no
  other.
* `Session.keyed_lists_partition` — both of what the queries answer, after every run of operations.
-/

set_option autoImplicit false

namespace FuzzLedger

/-! ## Groups of a list -/

/-- **The groups of a list by a key are together the list**, if each key is listed once. -/
theorem perm_flatMap_filter {α κ : Type} [DecidableEq κ] (key : α → κ) {keys : List κ}
    (hkeys : keys.Nodup) {rows : List α} (hcovered : ∀ r ∈ rows, key r ∈ keys) :
    (keys.flatMap fun k => rows.filter (key · = k)).Perm rows := by
  induction keys generalizing rows with
  | nil =>
    have hnil : rows = [] := List.eq_nil_iff_forall_not_mem.2 fun r hr => by
      simpa using hcovered r hr
    rw [hnil]
    exact .nil
  | cons k keys ih =>
    obtain ⟨hk, hkeys⟩ := List.nodup_cons.1 hkeys
    -- the other keys group what is left without the first one
    have hothers : (keys.flatMap fun j => rows.filter (key · = j)) =
        keys.flatMap fun j => (rows.filter fun r => !decide (key r = k)).filter (key · = j) := by
      refine List.flatMap_congr fun j hj => ?_
      have hne : j ≠ k := fun heq => hk (heq ▸ hj)
      rw [List.filter_filter]
      refine List.filter_congr fun r _ => ?_
      by_cases hr : key r = j <;> simp [hr, hne]
    have hcovered' : ∀ r ∈ rows.filter fun r => !decide (key r = k), key r ∈ keys := fun r hr => by
      obtain ⟨hr, hne⟩ := List.mem_filter.1 hr
      exact (List.mem_cons.1 (hcovered r hr)).resolve_left (by simpa using hne)
    rw [List.flatMap_cons, hothers]
    exact ((ih hkeys hcovered').append_left _).trans (List.filter_append_perm _ rows)

/-! ## Rows as they are read -/

namespace Item

instance decEq : (e : Entity) → DecidableEq (Item e)
  | .user => inferInstanceAs (DecidableEq User)
  | .arch => inferInstanceAs (DecidableEq Arch)
  | .host => inferInstanceAs (DecidableEq Host)
  | .batch => inferInstanceAs (DecidableEq Batch)
  | .opcode => inferInstanceAs (DecidableEq Opcode)
  | .testSuccess => inferInstanceAs (DecidableEq TestSuccess)
  | .testFailure => inferInstanceAs (DecidableEq TestFailure)
  | .testFailureState => inferInstanceAs (DecidableEq TestFailureState)

end Item

/-- A row as it is read, unless it cannot be. -/
def Row.read? (e : Entity) (r : Row e) : Option (Item e) := (Row.read e r).toOption

theorem Row.read?_eq_some_iff {e : Entity} {r : Row e} {x : Item e} :
    Row.read? e r = some x ↔ Row.read e r = .ok x := by
  unfold Row.read?
  cases Row.read e r <;> simp [Except.toOption]

theorem filterMap_read? {e : Entity} {rows : List (Row e)} {items : List (Item e)}
    (h : List.Forall₂ (fun r x => Row.read e r = .ok x) rows items) :
    rows.filterMap (Row.read? e) = items := by
  induction h with
  | nil => rfl
  | cons hread _ ih => rw [List.filterMap_cons_some (Row.read?_eq_some_iff.2 hread), ih]

/-! ## The five groupings -/

/-- A way to list a table by the rows of another one to which its own rows refer. -/
inductive Grouping where
  | hostsByArch
  | opcodesByArch
  | successesByBatch
  | failuresByBatch
  | statesByFailure

namespace Grouping

/-- The kind of the rows that are listed. -/
def kind : Grouping → Entity
  | .hostsByArch => .host
  | .opcodesByArch => .opcode
  | .successesByBatch => .testSuccess
  | .failuresByBatch => .testFailure
  | .statesByFailure => .testFailureState

/-- The kind of the rows that have a list each. -/
def parent : Grouping → Entity
  | .hostsByArch => .arch
  | .opcodesByArch => .arch
  | .successesByBatch => .batch
  | .failuresByBatch => .batch
  | .statesByFailure => .testFailure

/-- The identifier of the row under which a row is listed. -/
def key : (g : Grouping) → Row g.kind → Int
  | .hostsByArch, r => Host.archId r
  | .opcodesByArch, r => Opcode.archId r
  | .successesByBatch, r => StoredSuccess.batchId r
  | .failuresByBatch, r => TestFailure.batchId r
  | .statesByFailure, r => TestFailureState.failureId r

/-- The query for the list under an identifier. -/
def read : (g : Grouping) → Int → Store → Except Fault (List (Item g.kind))
  | .hostsByArch, id, s => s.hostsForArch id
  | .opcodesByArch, id, s => s.opcodesForArch id
  | .successesByBatch, id, s => s.successesForBatch id
  | .failuresByBatch, id, s => s.failuresForBatch id
  | .statesByFailure, id, s => s.statesForFailure id

theorem mem_references_iff (g : Grouping) {r : Row g.kind} {id : Int} :
    (g.parent, id) ∈ Row.references g.kind r ↔ g.key r = id := by
  rw [Row.references_eq]
  cases g <;> simp [kind, parent, key, eq_comm]

/-- The rows under an identifier. -/
def group (g : Grouping) (s : Store) (id : Int) : List (Row g.kind) :=
  (s.rows g.kind).filter (g.key · = id)

theorem read_eq (g : Grouping) (id : Int) (s : Store) :
    g.read id s = readAll g.kind (g.group s id) := by
  have hrows : s.referring g.kind (g.parent, id) = g.group s id := by
    refine List.filter_congr fun r _ => ?_
    rw [Bool.eq_iff_iff, List.contains_iff_mem, decide_eq_true_eq, g.mem_references_iff]
  rw [← hrows]
  cases g <;> rfl

/-- The list under an identifier. -/
def list (g : Grouping) (s : Store) (id : Int) : List (Item g.kind) :=
  (g.group s id).filterMap (Row.read? g.kind)

end Grouping

namespace Store

variable {s : Store} (g : Grouping)

theorem mem_group_iff {id : Int} {r : Row g.kind} :
    r ∈ g.group s id ↔ r ∈ s.rows g.kind ∧ g.key r = id := by
  rw [Grouping.group, List.mem_filter, decide_eq_true_eq]

theorem mem_list_iff {id : Int} {x : Item g.kind} :
    x ∈ g.list s id ↔ ∃ r ∈ s.rows g.kind, g.key r = id ∧ Row.read g.kind r = .ok x := by
  simp only [Grouping.list, List.mem_filterMap, mem_group_iff, Row.read?_eq_some_iff, and_assoc]

/-- Every row has a row under which it is listed. -/
theorem Coherent.exists_parent (h : s.Coherent) {r : Row g.kind} (hr : r ∈ s.rows g.kind) :
    ∃ p ∈ s.rows g.parent, Row.id g.parent p = g.key r :=
  has_iff.1 (h.parents g.kind r hr (g.parent, g.key r) (g.mem_references_iff.2 rfl))

/-- The rows of a table, group by group. -/
theorem Coherent.perm_groups (h : s.Coherent) :
    ((s.rows g.parent).flatMap fun p => g.group s (Row.id g.parent p)).Perm (s.rows g.kind) := by
  have hperm := perm_flatMap_filter g.key (h.ascending g.parent).nodup_ids
    fun r hr => List.mem_map.2 (h.exists_parent g hr)
  rwa [List.flatMap_map] at hperm

namespace Sound

theorem forall₂_list (h : s.Sound) (id : Int) :
    List.Forall₂ (fun r x => Row.read g.kind r = .ok x) (g.group s id) (g.list s id) := by
  have hgroup : ∀ r ∈ g.group s id, r ∈ s.rows g.kind := fun r hr => ((mem_group_iff g).1 hr).1
  obtain ⟨items, -, hitems⟩ := h.readAll_ok hgroup
  rwa [Grouping.list, filterMap_read? hitems]

/-- Every list can be read. -/
theorem read_list (h : s.Sound) (id : Int) : g.read id s = .ok (g.list s id) := by
  rw [g.read_eq, readAll_eq_ok (h.forall₂_list g id)]

/-- **The lists of a grouping are together the table.** -/
theorem perm_groups (h : s.Sound) :
    ∃ items, List.Forall₂ (fun r x => Row.read g.kind r = .ok x) (s.rows g.kind) items ∧
      ((s.rows g.parent).flatMap fun p => g.list s (Row.id g.parent p)).Perm items := by
  obtain ⟨items, -, hitems⟩ := h.readAll_ok (e := g.kind) fun r hr => hr
  refine ⟨items, hitems, ?_⟩
  have hperm := (h.coherent.perm_groups g).filterMap (Row.read? g.kind)
  rwa [List.filterMap_flatMap, filterMap_read? hitems] at hperm

/-- The lengths of the lists add up to the number of rows. -/
theorem sum_length_lists (h : s.Sound) :
    ((s.rows g.parent).map fun p => (g.list s (Row.id g.parent p)).length).sum =
      s.count g.kind := by
  obtain ⟨items, hitems, hperm⟩ := h.perm_groups g
  rw [← List.length_flatMap, hperm.length_eq, ← hitems.length_eq]
  rfl

/-- Every list is by ascending identifier. -/
theorem pairwise_list (h : s.Sound) (id : Int) :
    (g.list s id).Pairwise fun x y => Item.id g.kind x < Item.id g.kind y := by
  have hgroup : (g.group s id).Pairwise fun a b => Row.id g.kind a < Row.id g.kind b :=
    (h.coherent.ascending g.kind).filter _
  refine hgroup.filterMap _ fun a b hlt x hx y hy => ?_
  rwa [Item.id_of_read (Row.read?_eq_some_iff.1 hx), Item.id_of_read (Row.read?_eq_some_iff.1 hy)]

/-- **A row is once in the list under its own key, and in no other list.** -/
theorem count_group (h : s.Sound) {r : Row g.kind} (hr : r ∈ s.rows g.kind) {x : Item g.kind}
    (hread : Row.read g.kind r = .ok x) (id : Int) :
    (g.list s id).count x = if id = g.key r then 1 else 0 := by
  have hnodup : (g.list s id).Nodup :=
    (h.pairwise_list g id).imp fun hlt heq => absurd hlt (by rw [heq]; exact lt_irrefl _)
  have hmem : x ∈ g.list s id ↔ id = g.key r := by
    rw [mem_list_iff]
    constructor
    · rintro ⟨q, hq, hkey, hread'⟩
      have hid := (Item.id_of_read hread').symm.trans (Item.id_of_read hread)
      rw [← hkey, (h.coherent.ascending g.kind).eq_of_id_eq hq hr hid]
    · rintro rfl
      exact ⟨r, hr, rfl, hread⟩
  rw [hnodup.count]
  simp only [hmem]

end Sound
end Store

/-! ## After every run -/

namespace Session

/-- **The keyed lists partition their tables.**  After any run that wrote nothing past the
operations, for each of the five groupings: every list can be read and is by strictly ascending
identifier; every row is in exactly one list, that of the row to which it refers, and once in it;
the lists of all rows of the other table are together the rows of the table, and their lengths add
up to the number of rows that is counted. -/
theorem keyed_lists_partition {run : List Event} (hrun : ∀ event ∈ run, event.isDirect = false) :
    ∃ store, (fresh.steps run).image.tables = some store ∧ ∀ g : Grouping,
      ∃ lists : Int → List (Item g.kind),
        (∀ id, query g.kind (g.read id) (fresh.steps run) = .ok (lists id) (fresh.steps run)) ∧
        (∀ id, (lists id).Pairwise fun x y => Item.id g.kind x < Item.id g.kind y) ∧
        (∀ r ∈ store.rows g.kind, ∃ x, Row.read g.kind r = .ok x ∧
          ∃ p ∈ store.rows g.parent, (g.parent, Row.id g.parent p) ∈ Row.references g.kind r ∧
            ∀ id, (lists id).count x = if id = Row.id g.parent p then 1 else 0) ∧
        (∃ items, List.Forall₂ (fun r x => Row.read g.kind r = .ok x) (store.rows g.kind) items ∧
          ((store.rows g.parent).flatMap fun p => lists (Row.id g.parent p)).Perm items) ∧
        query g.kind (fun s => .ok (s.count g.kind)) (fresh.steps run) =
          .ok ((store.rows g.parent).map fun p => (lists (Row.id g.parent p)).length).sum
            (fresh.steps run) := by
  obtain ⟨-, store, htables, -⟩ := (coherent_steps run).image
  have hsound := sound_steps hrun htables
  refine ⟨store, htables, fun g => ⟨g.list store, fun id => ?_, hsound.pairwise_list g,
    fun r hr => ?_, hsound.perm_groups g, ?_⟩⟩
  · rw [query_eq htables, hsound.read_list]
  · obtain ⟨x, hread⟩ := hsound.readable hr
    obtain ⟨p, hp, hid⟩ := hsound.coherent.exists_parent g hr
    refine ⟨x, hread, p, hp, g.mem_references_iff.2 hid.symm, fun id => ?_⟩
    rw [hid, hsound.count_group g hr hread]
  · rw [query_eq htables, hsound.sum_length_lists]

/-- Two batches, and a success that is added to the first after the second. -/
def resumedRun : List Event :=
  [.request (.record .epoch interleaved), .request (.record .epoch elsewhere),
   .request (.addTestSuccess 1 2 5)]

/-- The successes of the first batch are listed around that of the second, and those of both are all
that are counted. -/
theorem keyed_lists_of_resumedRun :
    ∃ first second : List TestSuccess,
      query .testSuccess (·.successesForBatch 1) (fresh.steps resumedRun) =
        .ok first (fresh.steps resumedRun) ∧
      query .testSuccess (·.successesForBatch 2) (fresh.steps resumedRun) =
        .ok second (fresh.steps resumedRun) ∧
      first.map TestSuccess.id = [1, 2, 4] ∧ second.map TestSuccess.id = [3] ∧
      query .testSuccess (fun s => .ok (s.count .testSuccess)) (fresh.steps resumedRun) =
        .ok (first.length + second.length) (fresh.steps resumedRun) := by
  have hdirect : ∀ event ∈ resumedRun, event.isDirect = false := by decide
  obtain ⟨store, htables, hgroupings⟩ := keyed_lists_partition hdirect
  obtain ⟨lists, hquery, -, -, -, hcount⟩ := hgroupings .successesByBatch
  have hbatches : store.batches.rows.map StoredBatch.id = [1, 2] := by
    have heval : (fresh.steps resumedRun).image.tables.any (fun store =>
        store.batches.rows.map StoredBatch.id = [1, 2]) = true := by decide +kernel
    rw [htables] at heval
    simpa using heval
  have hids (id : Int) (ids : List Int)
      (heval : (match query .testSuccess (·.successesForBatch id) (fresh.steps resumedRun) with
        | .ok listed _ => listed.map TestSuccess.id
        | .error .. => []) = ids) : (lists id).map TestSuccess.id = ids := by
    have hlist : query .testSuccess (·.successesForBatch id) (fresh.steps resumedRun) =
        .ok (lists id) (fresh.steps resumedRun) := hquery id
    rw [hlist] at heval
    exact heval
  refine ⟨lists 1, lists 2, hquery 1, hquery 2, hids 1 _ (by decide +kernel),
    hids 2 _ (by decide +kernel), hcount.trans ?_⟩
  have hsum : (store.rows Entity.batch).map (fun p => (lists (Row.id .batch p)).length) =
      (store.batches.rows.map StoredBatch.id).map fun id => (lists id).length := by
    rw [List.map_map]
    rfl
  show EStateM.Result.ok ((store.rows Entity.batch).map
    fun p => (lists (Row.id .batch p)).length).sum _ = _
  rw [hsum, hbatches]
  rfl

end Session

end FuzzLedger
