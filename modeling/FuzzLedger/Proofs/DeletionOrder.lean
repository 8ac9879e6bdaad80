import FuzzLedger.Proofs.Cascade
import FuzzLedger.Proofs.ReadBack

/-!
# The order of deletions does not matter

One deletion may take away rows that the next one names, or rows that lie on the way from it to
others.  So what each deletion finds depends on the order, but what all of them leave does not.

* `Coherent.reaches_without_iff` — a row that stays is reached by the same rows as before: with it
  stay all rows on the ways to it.
* `Coherent.rows_withoutAll` — a run of deletions leaves the rows that none of the targets reached
  in the store it began with.
* `deletions_commute` — hence the same store for every order of the same targets.
-/

set_option autoImplicit false

namespace FuzzLedger

namespace Store

variable {s : Store} {e : Entity} {target other ref : RowRef}

/-! ## One deletion after another -/

/-- Foreign keys of the rows that stay are foreign keys from before. -/
theorem child_of_without {parent child : RowRef} (h : (s.without target).Child parent child) :
    s.Child parent child := by
  obtain ⟨f, id⟩ := child
  obtain ⟨r, hr, hid, href⟩ := child_iff.1 h
  exact child_iff.2 ⟨r, (mem_rows_without.1 hr).1, hid, href⟩

theorem Coherent.mem_without_iff (h : s.Coherent) {r : Row e} (hr : r ∈ s.rows e) :
    r ∈ (s.without target).rows e ↔ ¬ s.Reaches target (e, Row.id e r) := by
  rw [mem_rows_without, ← h.dependsOn_iff_reaches hr, Bool.not_eq_true]
  exact and_iff_right hr

/-- **A row that stays is reached by the same rows as before.**  Were one of the rows on the way
deleted, so would be all rows after it. -/
theorem Coherent.reaches_without_iff (h : s.Coherent) (hstays : ¬ s.Reaches target ref) :
    (s.without target).Reaches other ref ↔ s.Reaches other ref := by
  constructor
  · intro hreach
    exact Relation.ReflTransGen.mono (fun _ _ => child_of_without) _ _ hreach
  · intro hreach
    induction hreach with
    | refl => exact .refl
    | @tail parent child _ hchild ih =>
      have hparent : ¬ s.Reaches target parent := fun hgone => hstays (hgone.tail hchild)
      obtain ⟨f, id⟩ := child
      obtain ⟨r, hr, hid, href⟩ := child_iff.1 hchild
      have hleft : r ∈ (s.without target).rows f := by
        rw [h.mem_without_iff hr, hid]
        exact hstays
      exact (ih hparent).tail (child_iff.2 ⟨r, hleft, hid, href⟩)

/-- Where there is no such row, nothing is deleted. -/
theorem Coherent.without_of_not_has (h : s.Coherent) (hhas : s.has target = false) :
    s.without target = s := by
  refine ext_table fun e => ?_
  rw [table_without]
  have hrows : (s.rows e).filter (fun r => !s.dependsOn target e.rank e r) = s.rows e := by
    rw [List.filter_eq_self]
    intro r hr
    rw [Bool.not_eq_true', Bool.eq_false_iff]
    intro hdep
    rw [h.has_of_reaches hr (h.reaches_of_dependsOn hr hdep)] at hhas
    cases hhas
  unfold survivors
  rw [hrows]
  rfl

/-! ## Runs of deletions -/

/-- The store after deleting the targets one after the other. -/
def withoutAll (s : Store) (targets : List RowRef) : Store := targets.foldl without s

theorem last_withoutAll (targets : List RowRef) :
    ((s.withoutAll targets).table e).last = (s.table e).last := by
  induction targets generalizing s with
  | nil => rfl
  | cons target targets ih =>
    show (((s.without target).withoutAll targets).table e).last = _
    rw [ih, last_without]

open Classical in
/-- **What a run of deletions leaves**: the rows that none of the targets reached before it.  The
induction is on the run; what the later deletions reach in the smaller store, they reached before
the first one (`reaches_without_iff`). -/
theorem Coherent.rows_withoutAll (h : s.Coherent) (targets : List RowRef) (e : Entity) :
    (s.withoutAll targets).rows e =
      (s.rows e).filter fun r => ∀ target ∈ targets, ¬ s.Reaches target (e, Row.id e r) := by
  induction targets generalizing s with
  | nil => simp [Store.withoutAll]
  | cons target targets ih =>
    show ((s.without target).withoutAll targets).rows e = _
    rw [ih (h.without target), h.rows_without, List.filter_filter]
    refine List.filter_congr fun r _ => ?_
    rw [← Bool.decide_and]
    refine decide_eq_decide.2 ?_
    rw [List.forall_mem_cons, and_comm]
    refine and_congr_right fun hstays => forall₂_congr fun other _ => ?_
    rw [h.reaches_without_iff hstays]

/-- Stores left by the same deletions in another order are the same. -/
theorem Coherent.withoutAll_eq_of_perm (h : s.Coherent) {targets targets' : List RowRef}
    (hperm : targets.Perm targets') : s.withoutAll targets = s.withoutAll targets' := by
  classical
  refine ext_table fun e => ?_
  have hlast : ((s.withoutAll targets).table e).last = ((s.withoutAll targets').table e).last := by
    rw [last_withoutAll, last_withoutAll]
  have hrows : (s.withoutAll targets).rows e = (s.withoutAll targets').rows e := by
    rw [h.rows_withoutAll, h.rows_withoutAll]
    simp only [hperm.mem_iff]
  unfold rows at hrows
  cases hleft : (s.withoutAll targets).table e
  cases hleft' : (s.withoutAll targets').table e
  rw [hleft, hleft'] at hlast hrows
  simp only at hlast hrows
  rw [hlast, hrows]

end Store

/-! ## Deletions on a session -/

namespace Session

/-- Deletes rows one after the other; answers for each whether it was still there. -/
def deleteAll : List RowRef → Call (List Bool)
  | [] => return []
  | target :: targets => do
    let found ← delete target.1 target.2
    let rest ← deleteAll targets
    return found :: rest

variable {s : Session} {store : Store}

/-- A deletion succeeds, and deletes nothing where there is no such row. -/
theorem delete_eq (h : store.Coherent) (htables : s.image.tables = some store) (target : RowRef) :
    delete target.1 target.2 s =
      .ok (store.has target) (s.withTables (store.without target)) := by
  refine write_of_ok htables ?_
  rw [Action.delete_eq]
  split
  · rename_i hhas
    rw [hhas]
  · rename_i hhas
    have hnone : store.has target = false := Bool.eq_false_iff.2 hhas
    rw [hnone, h.without_of_not_has hnone]

/-- A run of deletions succeeds as a whole. -/
theorem deleteAll_eq (h : store.Coherent) (htables : s.image.tables = some store)
    (targets : List RowRef) :
    ∃ answers, deleteAll targets s = .ok answers (s.withTables (store.withoutAll targets)) := by
  induction targets generalizing s store with
  | nil =>
    refine ⟨[], ?_⟩
    obtain ⟨⟨version, tables⟩, saved⟩ := s
    cases htables
    rfl
  | cons target targets ih =>
    obtain ⟨answers, hrest⟩ :=
      ih (s := s.withTables (store.without target)) (h.without target) rfl
    refine ⟨store.has target :: answers, ?_⟩
    simp only [deleteAll, Bind.bind, EStateM.bind, delete_eq h htables target, hrest]
    rfl

open Classical in
/-- **Deletions commute.**  After every run, deleting rows in one order or in another succeeds and
leaves the same tables: those rows of each table, in order, that none of the deleted ones reached,
and the same largest and next identifiers as before. -/
theorem deletions_commute (run : List Event) {targets targets' : List RowRef}
    (hperm : targets.Perm targets') :
    ∃ store left answers answers', (fresh.steps run).image.tables = some store ∧
      deleteAll targets (fresh.steps run) = .ok answers ((fresh.steps run).withTables left) ∧
      deleteAll targets' (fresh.steps run) = .ok answers' ((fresh.steps run).withTables left) ∧
      ∀ e,
        left.rows e = (store.rows e).filter
          (fun r => ∀ target ∈ targets, ¬ store.Reaches target (e, Row.id e r)) ∧
        (left.table e).last = (store.table e).last ∧ left.nextId? e = store.nextId? e := by
  obtain ⟨-, store, htables, hcoherent⟩ := (coherent_steps run).image
  obtain ⟨answers, hdelete⟩ := deleteAll_eq hcoherent htables targets
  obtain ⟨answers', hdelete'⟩ := deleteAll_eq hcoherent htables targets'
  refine ⟨store, store.withoutAll targets, answers, answers', htables, hdelete, ?_, fun e => ?_⟩
  · rw [hcoherent.withoutAll_eq_of_perm hperm]
    exact hdelete'
  · refine ⟨hcoherent.rows_withoutAll targets e, Store.last_withoutAll targets, ?_⟩
    simp only [Store.nextId?, Store.last_withoutAll]

/-- Two reports that share their user, their host and an opcode. -/
def sharedRun : List Event := recordedRun ++ [.request (.record .epoch mixed)]

/-- Deleting the batch of one of them, the opcode and the user finds each of these; in another order
the user takes the batch with it. -/
theorem deletions_commute_shared :
    ∃ left,
      deleteAll [(.batch, 2), (.opcode, 1), (.user, 1)] (fresh.steps sharedRun) =
        .ok [true, true, true] ((fresh.steps sharedRun).withTables left) ∧
      deleteAll [(.user, 1), (.batch, 2), (.opcode, 1)] (fresh.steps sharedRun) =
        .ok [true, false, true] ((fresh.steps sharedRun).withTables left) := by
  have hperm : [(Entity.batch, (2 : Int)), (.opcode, 1), (.user, 1)].Perm
      [(.user, 1), (.batch, 2), (.opcode, 1)] := by decide
  obtain ⟨store, left, answers, answers', -, hdelete, hdelete', -⟩ :=
    deletions_commute sharedRun hperm
  have hanswers (expected : List Bool) {targets : List RowRef} {answers : List Bool} {s : Session}
      (hok : deleteAll targets (fresh.steps sharedRun) = .ok answers s)
      (heval : (match deleteAll targets (fresh.steps sharedRun) with
        | .ok answers _ => answers
        | .error .. => []) = expected) : answers = expected := by
    rw [hok] at heval
    exact heval
  refine ⟨left, ?_, ?_⟩
  · rw [hdelete, hanswers [true, true, true] hdelete (by decide +kernel)]
  · rw [hdelete', hanswers [true, false, true] hdelete' (by decide +kernel)]

end Session

end FuzzLedger
