import FuzzLedger.Proofs.Cascade
import FuzzLedger.Proofs.Lifetime
import FuzzLedger.Proofs.ReadBack

/-!
# Deleting a recorded batch takes its results back

A deletion that follows a recording at once meets the rows of the recording and the rows that were
there before it.

* `Coherent.has_of_reaches_old` — foreign keys do not lead from a new row to an old one: an old row
  refers to old rows only.
* `rows_without_of_rank_lt` — they lead to kinds of larger rank, so they do not come back from a
  batch to users, architectures, hosts and opcodes.
* `recordReport_hangs` — what a recording adds to the batches and results is reached from its batch.
* `delete_undoes_record` — hence these tables are as they were, and the others are left alone.
-/

set_option autoImplicit false

namespace FuzzLedger

namespace Store

variable {s t : Store} {e : Entity} {target : RowRef}

/-! ## Old rows and new ones -/

/-- **A way by foreign keys to an old row starts at an old row.**  On the way up an identifier names
the same row in both stores, and the parents of an old row are old. -/
theorem Coherent.has_of_reaches_old (hs : s.Coherent) (ht : t.Coherent)
    (hkept : ∀ e, s.rows e ⊆ t.rows e) {ref : RowRef} (hreach : t.Reaches target ref)
    (hold : s.has ref = true) : s.has target = true := by
  induction hreach with
  | refl => exact hold
  | @tail parent child _ hchild ih =>
    obtain ⟨f, id⟩ := child
    obtain ⟨q, hq, hqid, hparent⟩ := child_iff.1 hchild
    obtain ⟨r, hr, hrid⟩ := has_iff.1 hold
    have hsame : q = r := (ht.ascending f).eq_of_id_eq hq (hkept f hr) (by rw [hqid, hrid])
    subst hsame
    exact ih (hs.parents f q hr parent hparent)

theorem Coherent.rows_without_of_rank_lt (h : s.Coherent) (hrank : e.rank < target.1.rank) :
    (s.without target).rows e = s.rows e := by
  classical
  rw [h.rows_without, List.filter_eq_self]
  intro r _
  rw [decide_eq_true_eq]
  intro hreach
  rcases hreach.rank_lt with rfl | hlt
  · exact Nat.lt_irrefl _ hrank
  · exact Nat.lt_asymm hrank hlt

/-- **Deleting a new row leaves the old rows**, if all that was added to the table is reached from
it. -/
theorem Coherent.rows_without_of_append (hs : s.Coherent) (ht : t.Coherent)
    (hkept : ∀ e, s.rows e ⊆ t.rows e) (hnew : s.has target = false) {rows : List (Row e)}
    (hrows : t.rows e = s.rows e ++ rows)
    (hreach : ∀ r ∈ rows, t.Reaches target (e, Row.id e r)) :
    (t.without target).rows e = s.rows e := by
  classical
  have hold : (s.rows e).filter (fun r => ¬ t.Reaches target (e, Row.id e r)) = s.rows e := by
    rw [List.filter_eq_self]
    intro r hr
    rw [decide_eq_true_eq]
    intro hreach
    rw [hs.has_of_reaches_old ht hkept hreach (has_of_mem hr)] at hnew
    cases hnew
  have hgone : rows.filter (fun r => ¬ t.Reaches target (e, Row.id e r)) = [] := by
    rw [List.filter_eq_nil_iff]
    intro r hr
    rw [decide_eq_true_eq]
    exact not_not_intro (hreach r hr)
  rw [ht.rows_without, hrows, List.filter_append, hold, hgone, List.append_nil]

/-! ## What hangs off a recorded batch -/

/-- The rows that were added to the table of a kind are reached from the target. -/
def AddsBelow (target : RowRef) (e : Entity) (s t : Store) : Prop :=
  ∃ rows, t.rows e = s.rows e ++ rows ∧ ∀ r ∈ rows, t.Reaches target (e, Row.id e r)

theorem AddsBelow.congr {s' : Store} (h : AddsBelow target e s t) (hrows : s.rows e = s'.rows e) :
    AddsBelow target e s' t := by
  unfold AddsBelow at h ⊢
  rwa [← hrows]

variable {batchId archId : Int} {entries : List Entry}

theorem Recorded.successes_below (h : Recorded batchId archId entries s t) :
    AddsBelow (.batch, batchId) .testSuccess s t := by
  obtain ⟨rows, hrows, hstored⟩ := h.successes
  refine ⟨rows, hrows, fun x hx => ?_⟩
  have hmem : x ∈ t.successes.rows := by rw [hrows]; exact List.mem_append_right _ hx
  rw [← batchId_of_storesSuccesses hstored x hx]
  exact .single (.successOfBatch hmem)

theorem Recorded.failures_below (h : Recorded batchId archId entries s t) :
    AddsBelow (.batch, batchId) .testFailure s t := by
  obtain ⟨rows, hrows, hstored⟩ := h.failures
  refine ⟨rows, hrows, fun f hf => ?_⟩
  have hmem : f ∈ t.failures.rows := by rw [hrows]; exact List.mem_append_right _ hf
  rw [← batchId_of_storesFailures hstored f hf]
  exact .single (.failureOfBatch hmem)

/-- A new state refers to a new failure, as the identifiers of old ones were given out before. -/
theorem Recorded.states_below (h : Recorded batchId archId entries s t) (hs : s.Coherent) :
    AddsBelow (.batch, batchId) .testFailureState s t := by
  obtain ⟨rows, hrows, hbeyond⟩ := h.states
  obtain ⟨failures, hfailures, hreach⟩ := h.failures_below
  refine ⟨rows, hrows, fun d hd => ?_⟩
  have hmem : d ∈ t.states.rows := by rw [hrows]; exact List.mem_append_right _ hd
  obtain ⟨f, hf, hid⟩ :=
    has_iff.1 (h.coherent.parents .testFailureState d hmem _ (List.mem_singleton_self _))
  have hid : f.id = d.failureId := hid
  rw [hfailures] at hf
  rcases List.mem_append.1 hf with hold | hnew
  · have hle : f.id ≤ s.failures.last := hs.id_le_last .testFailure f hold
    have hlt := hbeyond d hd
    omega
  · have hway := hreach f hnew
    rw [show Row.id .testFailure f = d.failureId from hid] at hway
    exact hway.tail (.stateOfFailure hmem)

end Store

/-- **What a recording adds hangs off its batch**, which is new; all rows from before stay. -/
theorem Action.recordReport_hangs {s t : Store} {now : Stamp} {r : Report} {m : Summary}
    (h : s.Coherent) (hok : recordReport now r s = .ok m t) :
    t.Coherent ∧ s.has (.batch, m.batchId) = false ∧ t.has (.batch, m.batchId) = true ∧
      ∀ e ∈ [Entity.batch, .testSuccess, .testFailure, .testFailureState],
        Store.AddsBelow (.batch, m.batchId) e s t := by
  obtain ⟨user, arch, host, s₁, s₂, s₃, s₄, ⟨huser, -⟩, ⟨harch, -⟩, ⟨hhost, -⟩, happ, hrec, -⟩ :=
    recordReport_ok h hok
  -- what comes before the batch touches neither batches nor results
  have hbatches : s₃.table .batch = s.table .batch := by
    rw [hhost.frame .batch (by decide), harch.frame .batch (by decide),
      huser.frame .batch (by decide)]
  have hresults (e : Entity) (he : e ∉ [Entity.user, .arch, .host, .batch]) :
      s₄.rows e = s.rows e := by
    simp only [Store.rows, Store.frame_of_stages huser harch hhost happ he]
  have hid : m.batchId = (s₃.table .batch).last + 1 := happ.id_eq
  refine ⟨hrec.coherent, ?_, ?_, fun e he => ?_⟩
  · rw [hbatches] at hid
    rw [hid, ← Bool.not_eq_true, Store.has_iff]
    rintro ⟨q, hq, hqid⟩
    have hqid : Row.id .batch q = (s.table .batch).last + 1 := hqid
    have hle := h.id_le_last .batch q hq
    omega
  · exact Store.has_of_mem (e := .batch) (hrec.mem (by decide) happ.mem_self)
  · simp only [List.mem_cons, List.not_mem_nil, or_false] at he
    rcases he with rfl | rfl | rfl | rfl
    · have hadded := happ.rows_eq
      have hkept := hrec.frame .batch (by decide)
      simp only [Store.rows, hbatches, ← hkept] at hadded
      refine ⟨_, hadded, fun b hb => ?_⟩
      rw [List.mem_singleton.1 hb]
      exact .refl
    · exact hrec.successes_below.congr (hresults _ (by decide))
    · exact hrec.failures_below.congr (hresults _ (by decide))
    · exact (hrec.states_below happ.coherent).congr (hresults _ (by decide))

/-! ## A recording and the deletion after it -/

/-- **Deleting a recorded batch undoes its results and nothing else.**  Where a report was recorded
after any run, deleting its batch finds it; the batches, successes, failures and states are then
those from before the recording, and the users, architectures, hosts and opcodes those from after
it. -/
theorem Session.delete_undoes_record (run : List Event) {now : Stamp} {r : Report} {m : Summary}
    {s' : Session} (hok : record now r (fresh.steps run) = .ok m s') :
    ∃ store store' store'', (fresh.steps run).image.tables = some store ∧
      s'.image.tables = some store' ∧
      delete .batch m.batchId s' = .ok true (s'.withTables store'') ∧
      (∀ e ∈ [Entity.batch, .testSuccess, .testFailure, .testFailureState],
        store''.rows e = store.rows e) ∧
      ∀ e ∈ [Entity.user, .arch, .host, .opcode], store''.rows e = store'.rows e := by
  rcases record_cases now r (fresh.steps run) with ⟨f, hf⟩ | ⟨-, m', store, store', htables, ha, h⟩
  · rw [hf] at hok; cases hok
  rw [h] at hok
  cases hok
  obtain ⟨-, store₀, htables₀, hcoherent⟩ := (coherent_steps run).image
  rw [htables] at htables₀
  cases htables₀
  obtain ⟨hcoherent', hnew, hhas, hbelow⟩ := Action.recordReport_hangs hcoherent ha
  have hkept : ∀ e, store.rows e ⊆ store'.rows e :=
    keeps_of_ok (P := fun t => ∀ e, store.rows e ⊆ t.rows e)
      (fun _ _ hgrowth hsub e _ hr => hgrowth.mem (hsub e hr)) (Action.grows_recordReport now r) ha
      fun _ _ hr => hr
  refine ⟨store, store', store'.without (.batch, m.batchId), htables, rfl, ?_, ?_, ?_⟩
  · have haction : Action.delete .batch m.batchId store' =
        .ok true (store'.without (.batch, m.batchId)) := by
      rw [Action.delete_eq, if_pos hhas]
    exact write_of_ok rfl haction
  · intro e he
    obtain ⟨rows, hrows, hreach⟩ := hbelow e he
    exact hcoherent.rows_without_of_append hcoherent' hkept hnew hrows hreach
  · intro e he
    have hrank : e.rank < Entity.batch.rank := by
      simp only [List.mem_cons, List.not_mem_nil, or_false] at he
      rcases he with rfl | rfl | rfl | rfl <;> decide
    exact hcoherent'.rows_without_of_rank_lt hrank

/-- A report with a failure in two places is taken back next to the rows of an earlier one, which
has the same user, host and opcode. -/
theorem Session.delete_undoes_mixed :
    ∃ m s' store store' store'', record .epoch mixed (fresh.steps recordedRun) = .ok m s' ∧
      (fresh.steps recordedRun).image.tables = some store ∧ s'.image.tables = some store' ∧
      delete .batch m.batchId s' = .ok true (s'.withTables store'') ∧
      store''.rows .testSuccess = store.rows .testSuccess ∧
      store''.rows .opcode = store'.rows .opcode := by
  have hsuccess : (match record .epoch mixed (fresh.steps recordedRun) with
      | .ok .. => true
      | .error .. => false) = true := by decide +kernel
  cases hok : record .epoch mixed (fresh.steps recordedRun) with
  | ok m s' =>
    obtain ⟨store, store', store'', htables, htables', hdelete, hresults, hnames⟩ :=
      delete_undoes_record recordedRun hok
    exact ⟨m, s', store, store', store'', rfl, htables, htables', hdelete,
      hresults .testSuccess (by decide), hnames .opcode (by decide)⟩
  | error f s' =>
    rw [hok] at hsuccess
    cases hsuccess

end FuzzLedger
