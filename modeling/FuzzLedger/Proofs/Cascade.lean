import FuzzLedger.Proofs.Run

/-!
# A deletion removes exactly the dependents

`Store.Reaches` follows the foreign keys from parent to child, zero or more times.  The deletion
itself looks the other way: `Store.dependsOn` follows the references of a row upwards, for as many
steps as the rank of its kind allows.

* `dependsOn_iff_reaches` — in a coherent store the two agree: the rank bounds every chain of
  references, and on the way up an identifier names one row.
* `rows_without` — what a deletion leaves of each table, in order.
* `delete_removes_dependents` — the contract of deleting, after every run.
-/

set_option autoImplicit false

namespace FuzzLedger

namespace Store

variable {s : Store} {e : Entity}

/-- The second row is the first one, or comes from it by foreign keys from parent to child. -/
def Reaches (s : Store) : RowRef → RowRef → Prop := Relation.ReflTransGen s.Child

/-- What the deletion finds on the way up is reached on the way down. -/
theorem Coherent.reaches_of_dependsOn (h : s.Coherent) {target : RowRef} :
    ∀ {n : Nat} {e : Entity} {r : Row e}, r ∈ s.rows e → s.dependsOn target n e r = true →
      s.Reaches target (e, Row.id e r)
  | 0, e, r, _, hdep => by
    rw [dependsOn, beq_iff_eq] at hdep
    rw [hdep]
    exact .refl
  | n + 1, e, r, hr, hdep => by
    rw [dependsOn, Bool.or_eq_true, beq_iff_eq, Row.referencesOn_cascade, List.any_eq_true] at hdep
    rcases hdep with hdep | ⟨⟨p, i⟩, href, hdep⟩
    · rw [hdep]
      exact .refl
    · split at hdep
      · rename_i parent hfind
        obtain ⟨hparent, hid⟩ := h.find?_eq_some_iff.1 hfind
        have hreach := h.reaches_of_dependsOn hparent hdep
        rw [hid] at hreach
        exact hreach.tail (child_iff.2 ⟨r, hr, rfl, href⟩)
      · cases hdep

/-- The rank of a row's kind is enough steps for any way up. -/
theorem Coherent.dependsOn_of_reaches (h : s.Coherent) {target : RowRef} :
    ∀ {n : Nat} {e : Entity} {r : Row e}, r ∈ s.rows e → e.rank ≤ n →
      s.Reaches target (e, Row.id e r) → s.dependsOn target n e r = true := by
  intro n
  induction n with
  | zero =>
    intro e r hr hrank hreach
    rcases hreach.cases_tail with heq | ⟨⟨p, i⟩, -, hchild⟩
    · rw [dependsOn, beq_iff_eq, heq]
    · obtain ⟨q, -, -, href⟩ := child_iff.1 hchild
      have := Row.rank_lt_of_mem_references href
      omega
  | succ n ih =>
    intro e r hr hrank hreach
    rw [dependsOn, Bool.or_eq_true, beq_iff_eq, Row.referencesOn_cascade, List.any_eq_true]
    rcases hreach.cases_tail with heq | ⟨⟨p, i⟩, hup, hchild⟩
    · exact .inl heq
    · obtain ⟨q, hq, hid, href⟩ := child_iff.1 hchild
      have hqr := (h.ascending e).eq_of_id_eq hq hr hid
      subst hqr
      obtain ⟨parent, hparent, hi⟩ := has_iff.1 (h.parents e q hq (p, i) href)
      have hlt := Row.rank_lt_of_mem_references href
      refine .inr ⟨_, href, ?_⟩
      simp only [h.find?_eq_some_iff.2 ⟨hparent, hi⟩]
      exact ih hparent (by omega) (by rw [hi]; exact hup)

theorem Coherent.dependsOn_iff_reaches (h : s.Coherent) {target : RowRef} {r : Row e}
    (hr : r ∈ s.rows e) :
    s.dependsOn target e.rank e r = true ↔ s.Reaches target (e, Row.id e r) :=
  ⟨h.reaches_of_dependsOn hr, h.dependsOn_of_reaches hr (Nat.le_refl _)⟩

/-- Foreign keys lead to kinds of larger rank. -/
theorem Reaches.rank_lt {target ref : RowRef} (h : s.Reaches target ref) :
    target = ref ∨ target.1.rank < ref.1.rank := by
  induction h with
  | refl => exact .inl rfl
  | @tail parent child _ hchild ih =>
    obtain ⟨f, id⟩ := child
    obtain ⟨q, -, -, hparent⟩ := child_iff.1 hchild
    have hlt := Row.rank_lt_of_mem_references hparent
    rcases ih with rfl | ih
    · exact .inr hlt
    · exact .inr (Nat.lt_trans ih hlt)

open Classical in
/-- **A deletion leaves the rows that the target does not reach**, in their order. -/
theorem Coherent.rows_without (h : s.Coherent) (target : RowRef) (e : Entity) :
    (s.without target).rows e =
      (s.rows e).filter fun r => ¬ s.Reaches target (e, Row.id e r) := by
  have htable : (s.without target).rows e =
      (s.rows e).filter fun r => !s.dependsOn target e.rank e r := by
    simp only [rows, table_without, survivors]
  rw [htable]
  refine List.filter_congr fun r hr => ?_
  rw [Bool.eq_iff_iff, Bool.not_eq_true', ← Bool.not_eq_true, h.dependsOn_iff_reaches hr,
    decide_eq_true_eq]

/-- Where there is no such row, no row depends on it. -/
theorem Coherent.has_of_reaches (h : s.Coherent) {target : RowRef} {r : Row e}
    (hr : r ∈ s.rows e) (hreach : s.Reaches target (e, Row.id e r)) : s.has target = true := by
  rcases hreach.cases_head with heq | ⟨⟨f, i⟩, hchild, -⟩
  · rw [heq]
    exact has_of_mem hr
  · obtain ⟨q, hq, -, href⟩ := child_iff.1 hchild
    exact h.parents f q hq target href

end Store

open Classical in
/-- **Deleting removes exactly the dependents.**  After every run, deleting a row succeeds and
answers whether it was there.  Each table keeps, in order and unchanged, the rows that are not
reached from it by foreign keys, and the largest identifier that it has given out; nothing else of
the session changes. -/
theorem Session.delete_removes_dependents (run : List Event) (e : Entity) (id : Int) :
    ∃ store store' found, (fresh.steps run).image.tables = some store ∧
      delete e id (fresh.steps run) = .ok found
        { fresh.steps run with
          image := { (fresh.steps run).image with tables := some store' } } ∧
      (found = true ↔ ∃ r ∈ store.rows e, Row.id e r = id) ∧
      ∀ f,
        store'.rows f = (store.rows f).filter (fun r => ¬ store.Reaches (e, id) (f, Row.id f r)) ∧
        (store'.table f).last = (store.table f).last ∧ store'.nextId? f = store.nextId? f := by
  obtain ⟨-, store, htables, hcoherent⟩ := (coherent_steps run).image
  by_cases hhas : store.has (e, id) = true
  · refine ⟨store, store.without (e, id), true, htables, ?_, ?_, fun f => ?_⟩
    · simp only [delete, write, act, htables, Action.delete_eq, if_pos hhas]
    · exact ⟨fun _ => Store.has_iff.1 hhas, fun _ => rfl⟩
    · refine ⟨hcoherent.rows_without (e, id) f, Store.last_without _, ?_⟩
      simp only [Store.nextId?, Store.last_without]
  · refine ⟨store, store, false, htables, ?_, ?_, fun f => ⟨?_, rfl, rfl⟩⟩
    · simp only [delete, write, act, htables, Action.delete_eq, if_neg hhas]
    · exact ⟨fun h => absurd h (by decide), fun h => absurd (Store.has_iff.2 h) hhas⟩
    · refine (List.filter_eq_self.2 fun r hr => ?_).symm
      rw [decide_eq_true_eq]
      exact fun hreach => hhas (hcoherent.has_of_reaches hr hreach)

end FuzzLedger
