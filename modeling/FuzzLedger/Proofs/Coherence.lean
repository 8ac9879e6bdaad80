import FuzzLedger.Store.Delete

/-!
# Coherent stores

A store is coherent if in each table the identifiers ascend and are known to the table's sequence,
rows refer to rows that exist, and no two rows share a name that only one row may have
(`Store.Coherent`).  The foreign keys are listed one by one in `Store.Child`, so that what is
proved of them does not rest on `Row.references`; `Store.child_iff` says that the two agree.

* `Coherent.add` — a row without a violation may be added.
* `Coherent.spendId` — an identifier may be spent.
* `Coherent.without` — a row may be deleted: the parents of a survivor survive.
-/

set_option autoImplicit false

namespace FuzzLedger

/-! ## Rows of one table -/

namespace Table

variable {e : Entity}

/-- The identifiers of the rows ascend, so none occurs twice. -/
def Ascending (rows : List (Row e)) : Prop :=
  rows.Pairwise fun a b => Row.id e a < Row.id e b

theorem mem_place {r q : Row e} : ∀ {rows : List (Row e)}, q ∈ place r rows ↔ q = r ∨ q ∈ rows
  | [] => by simp [place]
  | p :: rows => by
    simp only [place]
    split
    · simp
    · rw [List.mem_cons, List.mem_cons, mem_place, or_left_comm]

theorem Ascending.place {r : Row e} :
    ∀ {rows : List (Row e)}, Ascending rows → (∀ q ∈ rows, Row.id e q ≠ Row.id e r) →
      Ascending (place r rows)
  | [], _, _ => by simp [Table.place, Ascending]
  | p :: rows, h, hne => by
    obtain ⟨hp, hrows⟩ := List.pairwise_cons.1 h
    simp only [Table.place]
    split
    · rename_i hlt
      refine List.pairwise_cons.2 ⟨fun q hq => ?_, h⟩
      rcases List.mem_cons.1 hq with rfl | hq
      · exact hlt
      · have := hp q hq; omega
    · rename_i hge
      have hrest := Ascending.place hrows fun q hq => hne q (List.mem_cons_of_mem _ hq)
      refine List.pairwise_cons.2 ⟨fun q hq => ?_, hrest⟩
      rcases mem_place.1 hq with rfl | hq
      · have := hne p List.mem_cons_self; omega
      · exact hp q hq

/-- A row with a larger identifier than all others goes to the end. -/
theorem place_eq_append {r : Row e} :
    ∀ {rows : List (Row e)}, (∀ q ∈ rows, Row.id e q < Row.id e r) → place r rows = rows ++ [r]
  | [], _ => rfl
  | p :: rows, h => by
    have hp := h p List.mem_cons_self
    rw [place, if_neg (by omega), place_eq_append fun q hq => h q (List.mem_cons_of_mem _ hq)]
    rfl

theorem Ascending.eq_of_id_eq {rows : List (Row e)} (h : Ascending rows) {a b : Row e}
    (ha : a ∈ rows) (hb : b ∈ rows) (hid : Row.id e a = Row.id e b) : a = b := by
  induction rows with
  | nil => cases ha
  | cons p rows ih =>
    obtain ⟨hp, hrows⟩ := List.pairwise_cons.1 h
    rcases List.mem_cons.1 ha with h1 | h1 <;> rcases List.mem_cons.1 hb with h2 | h2
    · rw [h1, h2]
    · subst h1; have := hp b h2; omega
    · subst h2; have := hp a h1; omega
    · exact ih hrows h1 h2

theorem Ascending.nodup_ids {rows : List (Row e)} (h : Ascending rows) :
    (rows.map (Row.id e)).Nodup :=
  List.pairwise_map.2 (h.imp fun hlt heq => by omega)

theorem has_iff {t : Table e} {id : Int} : t.has id = true ↔ ∃ r ∈ t.rows, Row.id e r = id := by
  simp [has]

theorem find?_eq_some_iff {t : Table e} (h : Ascending t.rows) {id : Int} {r : Row e} :
    t.find? id = some r ↔ r ∈ t.rows ∧ Row.id e r = id := by
  constructor
  · intro hf
    exact ⟨List.mem_of_find?_eq_some hf, by simpa using List.find?_some hf⟩
  · rintro ⟨hr, hid⟩
    obtain ⟨q, hq⟩ : ∃ q, t.find? id = some q :=
      Option.isSome_iff_exists.1 (List.find?_isSome.2 ⟨r, hr, by simp [hid]⟩)
    have hqid : Row.id e q = id := by simpa using List.find?_some hq
    rw [hq, h.eq_of_id_eq (List.mem_of_find?_eq_some hq) hr (by rw [hqid, hid])]

end Table

/-! ## Tables of a store after a change -/

namespace Store

variable {s : Store} {e f : Entity}

theorem table_add_same (r : Row e) : (s.add e r).table e = (s.table e).add r :=
  table_setTable_same ..

theorem table_add_ne (r : Row e) (h : f ≠ e) : (s.add e r).table f = s.table f :=
  table_setTable_ne _ _ h

theorem rows_add_same (r : Row e) : (s.add e r).rows e = Table.place r (s.rows e) := by
  simp only [rows, table_add_same, Table.add]

theorem rows_add_ne (r : Row e) (h : f ≠ e) : (s.add e r).rows f = s.rows f := by
  simp only [rows, table_add_ne r h]

theorem mem_rows_add {r : Row e} {q : Row f} :
    q ∈ (s.add e r).rows f ↔ q ∈ s.rows f ∨ (⟨f, q⟩ : Sigma Row) = ⟨e, r⟩ := by
  by_cases h : f = e
  · subst h
    rw [rows_add_same, Table.mem_place, or_comm]
    simp
  · rw [rows_add_ne r h]
    simp [h]

theorem last_add (r : Row e) :
    ((s.add e r).table f).last = if f = e then max (s.table e).last (Row.id e r)
      else (s.table f).last := by
  split
  · rename_i h; subst h; rw [table_add_same]; rfl
  · rename_i h; rw [table_add_ne r h]

@[simp] theorem rows_spendId (id : Int) : (s.spendId e id).rows f = s.rows f := by
  by_cases h : f = e
  · subst h; simp [spendId, rows]
  · simp only [spendId, rows, table_setTable_ne _ _ h]

theorem last_spendId (id : Int) :
    ((s.spendId e id).table f).last = if f = e then max (s.table e).last id
      else (s.table f).last := by
  split
  · rename_i h; subst h; simp [spendId]
  · rename_i h; rw [spendId, table_setTable_ne _ _ h]

theorem has_iff {ref : RowRef} :
    s.has ref = true ↔ ∃ r ∈ s.rows ref.1, Row.id ref.1 r = ref.2 :=
  Table.has_iff

theorem has_of_mem {r : Row e} (h : r ∈ s.rows e) : s.has (e, Row.id e r) = true :=
  has_iff.2 ⟨r, h, rfl⟩

theorem has_add {r : Row e} {ref : RowRef} :
    (s.add e r).has ref = true ↔ s.has ref = true ∨ ref = (e, Row.id e r) := by
  obtain ⟨f, id⟩ := ref
  simp only [has_iff, mem_rows_add]
  constructor
  · rintro ⟨q, hq | hq, hid⟩
    · exact .inl ⟨q, hq, hid⟩
    · cases hq
      exact .inr (by rw [← hid])
  · rintro (⟨q, hq, hid⟩ | h)
    · exact ⟨q, .inl hq, hid⟩
    · cases h
      exact ⟨r, .inr rfl, rfl⟩

@[simp] theorem has_spendId (id : Int) (ref : RowRef) : (s.spendId e id).has ref = s.has ref := by
  rw [Bool.eq_iff_iff]
  simp only [has_iff, rows_spendId]

theorem mem_rows_without {target : RowRef} {r : Row e} :
    r ∈ (s.without target).rows e ↔ r ∈ s.rows e ∧ s.dependsOn target e.rank e r = false := by
  simp [rows, survivors]

theorem last_without (target : RowRef) : ((s.without target).table e).last = (s.table e).last := by
  simp [survivors]

/-! ## Rules for a new row -/

theorem nextId?_eq_some_iff {id : Int} :
    s.nextId? e = some id ↔ (s.table e).last < maxId ∧ id = (s.table e).last + 1 := by
  unfold nextId?
  split
  · rename_i h
    rw [Option.some.injEq]
    exact ⟨fun hid => ⟨h, hid.symm⟩, fun hid => hid.2.symm⟩
  · rename_i h
    exact ⟨fun hid => absurd hid (by simp), fun hid => absurd hid.1 h⟩

theorem nameTaken_eq_false_iff {r : Row e} :
    s.nameTaken e r = false ↔
      ∀ name, Row.uniqueName? e r = some name →
        ∀ q ∈ s.rows e, Row.uniqueName? e q ≠ some name := by
  unfold nameTaken
  split
  · rename_i name hname
    simp [hname, Table.findNamed?, rows]
  · rename_i hname
    simp [hname]

theorem violation?_eq_none_iff {r : Row e} :
    s.violation? e r = none ↔
      overLong? e r = none ∧ s.has (e, Row.id e r) = false ∧ s.nameTaken e r = false ∧
        ∀ ref ∈ Row.references e r, s.has ref = true := by
  unfold violation?
  split
  · rename_i v hv
    simp [hv]
  · rename_i hv
    split
    · rename_i hid; simp [hid]
    · rename_i hid
      split
      · rename_i hname; simp [hname]
      · rename_i hname
        split
        · rename_i href
          rw [List.all_eq_true] at href
          exact ⟨fun _ => ⟨hv, by simpa using hid, by simpa using hname, href⟩, fun _ => rfl⟩
        · rename_i href
          rw [List.all_eq_true] at href
          exact ⟨fun h => absurd h (by simp), fun h => absurd h.2.2.2 href⟩

/-! ## Foreign keys -/

/-- The foreign keys of the stored rows: the second row refers to the first. -/
inductive Child (s : Store) : RowRef → RowRef → Prop where
  | hostOfArch {h : Host TextCell} :
      h ∈ s.hosts.rows → Child s (.arch, h.archId) (.host, h.id)
  | opcodeOfArch {o : Opcode TextCell} :
      o ∈ s.opcodes.rows → Child s (.arch, o.archId) (.opcode, o.id)
  | batchOfHost {b : StoredBatch} :
      b ∈ s.batches.rows → Child s (.host, b.testingHostId) (.batch, b.id)
  | batchOfUser {b : StoredBatch} : b ∈ s.batches.rows → Child s (.user, b.userId) (.batch, b.id)
  | successOfBatch {t : StoredSuccess} :
      t ∈ s.successes.rows → Child s (.batch, t.batchId) (.testSuccess, t.id)
  | successOfOpcode {t : StoredSuccess} :
      t ∈ s.successes.rows → Child s (.opcode, t.opcodeId) (.testSuccess, t.id)
  | failureOfBatch {t : TestFailure TextCell} :
      t ∈ s.failures.rows → Child s (.batch, t.batchId) (.testFailure, t.id)
  | failureOfOpcode {t : TestFailure TextCell} :
      t ∈ s.failures.rows → Child s (.opcode, t.opcodeId) (.testFailure, t.id)
  | stateOfFailure {d : TestFailureState TextCell} :
      d ∈ s.states.rows → Child s (.testFailure, d.failureId) (.testFailureState, d.id)

/-- The foreign keys are those that the references of rows give. -/
theorem child_iff {parent : RowRef} {id : Int} :
    s.Child parent (e, id) ↔ ∃ r ∈ s.rows e, Row.id e r = id ∧ parent ∈ Row.references e r := by
  constructor
  · intro h
    cases h <;> exact ⟨_, ‹_›, rfl, by simp [Row.references_eq]⟩
  · rintro ⟨r, hr, rfl, href⟩
    cases e <;> simp only [Row.references_eq, List.mem_cons, List.not_mem_nil, or_false] at href
    case host => subst href; exact .hostOfArch hr
    case opcode => subst href; exact .opcodeOfArch hr
    case batch =>
      rcases href with rfl | rfl
      · exact .batchOfHost hr
      · exact .batchOfUser hr
    case testSuccess =>
      rcases href with rfl | rfl
      · exact .successOfBatch hr
      · exact .successOfOpcode hr
    case testFailure =>
      rcases href with rfl | rfl
      · exact .failureOfBatch hr
      · exact .failureOfOpcode hr
    case testFailureState => subst href; exact .stateOfFailure hr

/-! ## Coherence -/

/-- What every row may rely on of the others, whatever was written and by whom. -/
structure Coherent (s : Store) : Prop where
  ascending : ∀ e, Table.Ascending (s.rows e)
  id_le_last : ∀ e, ∀ r ∈ s.rows e, Row.id e r ≤ (s.table e).last
  parents : ∀ e, ∀ r ∈ s.rows e, ∀ ref ∈ Row.references e r, s.has ref = true
  names : ∀ e, ∀ a ∈ s.rows e, ∀ b ∈ s.rows e, ∀ name,
    Row.uniqueName? e a = some name → Row.uniqueName? e b = some name → a = b

theorem Coherent.empty : Coherent .empty := by
  have h : ∀ e, Store.empty.rows e = [] := fun e => by cases e <;> rfl
  constructor
  · intro e; rw [h]; exact List.Pairwise.nil
  all_goals intro e r hr; rw [h] at hr; cases hr

/-- **A row without a violation keeps the store coherent.** -/
theorem Coherent.add (h : s.Coherent) {r : Row e} (hv : s.violation? e r = none) :
    (s.add e r).Coherent := by
  obtain ⟨-, hid, hname, hrefs⟩ := violation?_eq_none_iff.1 hv
  rw [nameTaken_eq_false_iff] at hname
  constructor
  · intro f
    by_cases hf : f = e
    · subst hf
      rw [rows_add_same]
      refine (h.ascending f).place fun q hq heq => ?_
      rw [← heq, has_of_mem hq] at hid
      cases hid
    · rw [rows_add_ne r hf]; exact h.ascending f
  · intro f q hq
    rw [last_add]
    rcases mem_rows_add.1 hq with hq | hq
    · have := h.id_le_last f q hq
      split
      · rename_i hf; subst hf; omega
      · exact this
    · cases hq; rw [if_pos rfl]; omega
  · intro f q hq ref href
    rcases mem_rows_add.1 hq with hq | hq
    · exact has_add.2 (.inl (h.parents f q hq ref href))
    · cases hq; exact has_add.2 (.inl (hrefs ref href))
  · intro f a ha b hb name hna hnb
    rcases mem_rows_add.1 ha with ha | ha <;> rcases mem_rows_add.1 hb with hb | hb
    · exact h.names f a ha b hb name hna hnb
    · cases hb; exact absurd hna (hname name hnb a ha)
    · cases ha; exact absurd hnb (hname name hna b hb)
    · cases ha; cases hb; rfl

theorem Coherent.spendId (h : s.Coherent) (id : Int) : (s.spendId e id).Coherent := by
  constructor
  · intro f; rw [rows_spendId]; exact h.ascending f
  · intro f q hq
    rw [rows_spendId] at hq
    rw [last_spendId]
    have := h.id_le_last f q hq
    split
    · rename_i hf; subst hf; omega
    · exact this
  · intro f q hq ref href
    rw [rows_spendId] at hq
    rw [has_spendId]
    exact h.parents f q hq ref href
  · intro f a ha b hb
    rw [rows_spendId] at ha hb
    exact h.names f a ha b hb

/-! ## Deleting keeps a store coherent -/

/-- A way to the target that fits into some steps fits into more of them. -/
theorem dependsOn_mono {target : RowRef} :
    ∀ {n m : Nat} {e : Entity} {r : Row e}, n ≤ m → s.dependsOn target n e r = true →
      s.dependsOn target m e r = true
  | 0, 0, _, _, _, h => h
  | 0, m + 1, e, r, _, h => by
    rw [dependsOn] at h
    rw [dependsOn, h, Bool.true_or]
  | n + 1, m + 1, e, r, hle, h => by
    rw [dependsOn, Bool.or_eq_true, List.any_eq_true] at h ⊢
    refine h.imp_right ?_
    rintro ⟨ref, href, hdep⟩
    refine ⟨ref, href, ?_⟩
    split at hdep
    · rename_i parent hparent
      exact dependsOn_mono (by omega) hdep
    · cases hdep

/-- Whoever refers to a row that goes, goes too. -/
theorem dependsOn_of_parent {target : RowRef} {r : Row e} {p : Entity} {i : Int} {parent : Row p}
    (href : (p, i) ∈ Row.references e r) (hfind : s.find? p i = some parent)
    (hdep : s.dependsOn target p.rank p parent = true) :
    s.dependsOn target e.rank e r = true := by
  have hlt := Row.rank_lt_of_mem_references href
  obtain ⟨n, hn⟩ : ∃ n, e.rank = n + 1 := ⟨e.rank - 1, by omega⟩
  rw [hn, dependsOn, Row.referencesOn_cascade, Bool.or_eq_true, List.any_eq_true]
  refine .inr ⟨(p, i), href, ?_⟩
  simp only [hfind]
  exact dependsOn_mono (by omega) hdep

theorem Coherent.find?_eq_some_iff (h : s.Coherent) {id : Int} {r : Row e} :
    s.find? e id = some r ↔ r ∈ s.rows e ∧ Row.id e r = id :=
  Table.find?_eq_some_iff (h.ascending e)

/-- **Deleting keeps the store coherent**: the parents of a surviving row survive. -/
theorem Coherent.without (h : s.Coherent) (target : RowRef) : (s.without target).Coherent := by
  constructor
  · intro e
    have hsub : ((s.without target).rows e).Sublist (s.rows e) := by
      simp only [rows, table_without, survivors]
      exact List.filter_sublist
    exact (h.ascending e).sublist hsub
  · intro e r hr
    rw [last_without]
    exact h.id_le_last e r (mem_rows_without.1 hr).1
  · rintro e r hr ⟨p, i⟩ href
    obtain ⟨hr, hstays⟩ := mem_rows_without.1 hr
    obtain ⟨parent, hparent, hid⟩ := has_iff.1 (h.parents e r hr (p, i) href)
    refine has_iff.2 ⟨parent, mem_rows_without.2 ⟨hparent, ?_⟩, hid⟩
    rw [Bool.eq_false_iff]
    intro hdep
    have := dependsOn_of_parent href (h.find?_eq_some_iff.2 ⟨hparent, hid⟩) hdep
    rw [hstays] at this
    cases this
  · intro e a ha b hb
    exact h.names e a (mem_rows_without.1 ha).1 b (mem_rows_without.1 hb).1

end Store

end FuzzLedger
