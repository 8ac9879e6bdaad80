import FuzzLedger.Proofs.Run

/-!
# An identifier names one row for ever

A `Write` is a request or an attempt to set the submission time of some batches directly.  Without
explicit transactions every moment between two writes is a committed one, so `Session.afterWrites`
gives the committed tables of all moments of a run.

* `Store.Later` — what tables may become in time: the sequences do not fall, and a row is an old one
  or has an identifier beyond all that were given out.  The changes of `Store.Change` keep it
  (`Later.change`), hence every write does (`later_afterWrites`).
* `setSubmittedAt_eq` — submission times can be set to what they are and to nothing else.
* `ids_name_one_row` — both together, for any moments of any run.
-/

set_option autoImplicit false

namespace FuzzLedger

/-- A writing operation, or an attempt to set the submission time of the batches that a condition
selects. -/
inductive Write where
  | request (r : Request)
  | setSubmittedAt (selected : StoredBatch → Bool) (value : Cell)

/-! ## Tables in time -/

namespace Store

variable {s t u : Store} {e : Entity}

/-- The second tables may be what became of the first ones. -/
structure Later (s t : Store) : Prop where
  last_le : ∀ e, (s.table e).last ≤ (t.table e).last
  old_or_beyond : ∀ e, ∀ r ∈ t.rows e, r ∈ s.rows e ∨ (s.table e).last < Row.id e r

theorem Later.refl (s : Store) : Later s s := ⟨fun _ => Int.le_refl _, fun _ _ hr => .inl hr⟩

/-- Growth leaves every row where it is. -/
theorem Growth.mem {Allowed : Store → (e : Entity) → Row e → Prop} (h : Growth Allowed s t)
    {r : Row e} (hr : r ∈ s.rows e) : r ∈ t.rows e := by
  cases h with
  | add _ _ => exact mem_rows_add.2 (.inl hr)
  | spend _ => rwa [rows_spendId]

/-- **One change makes tables later.** -/
theorem Later.change (h : Later s t) (hchange : Change t u) : Later s u := by
  cases hchange with
  | grow hgrowth =>
    cases hgrowth with
    | @add e r hok hregular =>
      have hid := (nextId?_eq_some_iff.1 hregular.1).2
      have hlast := h.last_le e
      refine ⟨fun f => ?_, fun f q hq => ?_⟩
      · have := h.last_le f
        rw [last_add]
        split
        · rename_i hf; subst hf; omega
        · exact this
      · rcases mem_rows_add.1 hq with hq | hq
        · exact h.old_or_beyond f q hq
        · cases hq
          exact .inr (by omega)
    | @spend e id hnext =>
      refine ⟨fun f => ?_, fun f q hq => ?_⟩
      · have := h.last_le f
        rw [last_spendId]
        split
        · rename_i hf; subst hf; omega
        · exact this
      · rw [rows_spendId] at hq
        exact h.old_or_beyond f q hq
  | remove _ =>
    refine ⟨fun f => ?_, fun f q hq => ?_⟩
    · rw [last_without]; exact h.last_le f
    · exact h.old_or_beyond f q (mem_rows_without.1 hq).1

/-- A row under an identifier that was given out before is a row of then. -/
theorem Later.mem_of_id_le (h : Later s t) {r : Row e} (hr : r ∈ t.rows e)
    (hid : Row.id e r ≤ (s.table e).last) : r ∈ s.rows e := by
  rcases h.old_or_beyond e r hr with hold | hbeyond
  · exact hold
  · omega

theorem Coherent.find?_eq_none_iff (h : s.Coherent) {id : Int} :
    s.find? e id = none ↔ ∀ r ∈ s.rows e, Row.id e r ≠ id := by
  rw [Option.eq_none_iff_forall_not_mem]
  constructor
  · intro hnone r hr hid
    exact hnone r (h.find?_eq_some_iff.2 ⟨hr, hid⟩)
  · intro hnone r hr
    obtain ⟨hr, hid⟩ := h.find?_eq_some_iff.1 hr
    exact hnone r hr hid

/-- What is found under an identifier at two moments is the same row. -/
theorem Later.find?_unique (h : Later s t) (hs : s.Coherent) (ht : t.Coherent) {id : Int}
    {a b : Row e} (ha : s.find? e id = some a) (hb : t.find? e id = some b) : a = b := by
  obtain ⟨ha, haid⟩ := hs.find?_eq_some_iff.1 ha
  obtain ⟨hb, hbid⟩ := ht.find?_eq_some_iff.1 hb
  have hle := hs.id_le_last e a ha
  have hold := h.mem_of_id_le hb (by omega)
  exact (hs.ascending e).eq_of_id_eq ha hold (by rw [haid, hbid])

/-- A row that was found is found later, if there still is one under its identifier. -/
theorem Later.find?_eq (h : Later s t) (hs : s.Coherent) (ht : t.Coherent) {id : Int}
    {r : Row e} (hr : s.find? e id = some r) (hhas : t.has (e, id) = true) :
    t.find? e id = some r := by
  obtain ⟨q, hq, hid⟩ := has_iff.1 hhas
  have hfind : t.find? e id = some q := ht.find?_eq_some_iff.2 ⟨hq, hid⟩
  rw [hfind, h.find?_unique hs ht hr hfind]

/-- An identifier that was given out and has no row will have none. -/
theorem Later.find?_none (h : Later s t) (hs : s.Coherent) (ht : t.Coherent) {id : Int}
    (hid : id ≤ (s.table e).last) (hnone : s.find? e id = none) : t.find? e id = none := by
  rw [ht.find?_eq_none_iff]
  intro r hr hrid
  exact hs.find?_eq_none_iff.1 hnone r (h.mem_of_id_le hr (by omega)) hrid

end Store

/-! ## Submission times -/

/-- The batches that a condition selects. -/
def Store.selectBatches (s : Store) (selected : StoredBatch → Bool) : List StoredBatch :=
  s.batches.rows.filter selected

namespace Action

/-- **Setting submission times**: if all selected batches have the text already, they are counted;
else nothing is set. -/
theorem setSubmittedAt_eq (selected : StoredBatch → Bool) (value : Cell) (store : Store) :
    setSubmittedAt selected value store =
      if ∀ b ∈ store.selectBatches selected, value.toText? = some b.submittedAt then
        .ok (store.selectBatches selected).length store
      else .error ⟨.immutable "batches.submitted_at is immutable", []⟩ store := by
  have hall : (store.selectBatches selected).all (fun b => value.toText? == some b.submittedAt) =
      decide (∀ b ∈ store.selectBatches selected, value.toText? = some b.submittedAt) := by
    rw [Bool.eq_iff_iff]
    simp
  have hget : (get : Action Store) store = .ok store store := rfl
  unfold Store.selectBatches at hall ⊢
  simp only [setSubmittedAt, Bind.bind, EStateM.bind, hget, hall, decide_eq_true_eq]
  split <;> rfl

end Action

/-! ## Runs of writes -/

namespace Session

variable {s : Session} {α : Type}

/-- The session after a write, whether it succeeded or failed. -/
def afterWrite (s : Session) : Write → Session
  | .request r => s.after r
  | .setSubmittedAt selected value => finalState (setSubmittedAt selected value s)

/-- The session after a run of writes. -/
def afterWrites (s : Session) (run : List Write) : Session := run.foldl afterWrite s

theorem afterWrites_append (s : Session) (run more : List Write) :
    s.afterWrites (run ++ more) = (s.afterWrites run).afterWrites more :=
  List.foldl_append

theorem setSubmittedAt_eq {store : Store} (htables : s.image.tables = some store)
    (selected : StoredBatch → Bool) (value : Cell) :
    setSubmittedAt selected value s =
      if ∀ b ∈ store.selectBatches selected, value.toText? = some b.submittedAt then
        .ok (store.selectBatches selected).length s
      else .error ⟨.immutable "batches.submitted_at is immutable", []⟩ s := by
  obtain ⟨⟨version, tables⟩, saved⟩ := s
  subst htables
  simp only [setSubmittedAt, write, act, Action.setSubmittedAt_eq]
  by_cases h : ∀ b ∈ store.selectBatches selected, value.toText? = some b.submittedAt
  · simp only [if_pos h]
  · simp [if_neg h]

/-! ### Without an open transaction nothing but the tables changes -/

theorem finalState_act (bare : Failure) (a : Action α) (s : Session) :
    ∃ tables, finalState (act bare a s) = { s with image := { s.image with tables } } := by
  unfold act
  split
  · exact ⟨s.image.tables, rfl⟩
  · split <;> exact ⟨_, rfl⟩

theorem finalState_write (h : s.saved = none) (bare : Failure) (a : Action α) :
    ∃ tables, finalState (write bare a s) = { s with image := { s.image with tables } } := by
  obtain ⟨tables, hact⟩ := finalState_act bare a s
  refine ⟨tables, ?_⟩
  unfold write
  cases has : act bare a s with
  | ok x s' => rw [has] at hact; exact hact
  | error f s' =>
    rw [has] at hact
    simp only [finalState] at hact ⊢
    split
    · -- giving up leads back to the session itself, as there is no transaction
      rw [hact, abandon, close, h]
      rfl
    · exact hact

theorem after_eq_withTables (h : s.saved = none) (r : Request) :
    ∃ tables, s.after r = { s with image := { s.image with tables } } := by
  rw [after_eq]
  cases r with
  | record now report =>
    rw [perform, finalState_map]
    rcases record_cases now report s with ⟨f, hf⟩ | ⟨-, m, store, store', -, -, hok⟩
    · rw [hf]; exact ⟨s.image.tables, rfl⟩
    · rw [hok]; exact ⟨some store', rfl⟩
  | createBatch now b => rw [perform, finalState_map]; exact finalState_act _ _ s
  | _ => rw [perform, finalState_map]; exact finalState_write h _ _

theorem saved_afterWrite (h : s.saved = none) (w : Write) : (s.afterWrite w).saved = none := by
  cases w with
  | request r =>
    obtain ⟨tables, hafter⟩ := after_eq_withTables h r
    rw [afterWrite, hafter]
    exact h
  | setSubmittedAt selected value =>
    obtain ⟨tables, hwrite⟩ :=
      finalState_write h (noTable .batch) (Action.setSubmittedAt selected value)
    rw [afterWrite, setSubmittedAt, hwrite]
    exact h

theorem saved_afterWrites : ∀ (run : List Write) {s : Session}, s.saved = none →
    (s.afterWrites run).saved = none
  | [], _, h => h
  | w :: run, _, h => saved_afterWrites run (saved_afterWrite h w)

/-! ### What every write keeps -/

theorem Holds.afterWrite {P : Store → Prop} (hkeep : ∀ s t, Store.Change s t → P s → P t)
    (h : s.Holds P) (w : Write) : (s.afterWrite w).Holds P := by
  cases w with
  | request r => exact h.after hkeep r
  | setSubmittedAt selected value =>
    obtain ⟨-, store, htables, -⟩ := h.image
    have hsame : s.afterWrite (.setSubmittedAt selected value) = s := by
      rw [Session.afterWrite, setSubmittedAt_eq htables]
      split <;> rfl
    rw [hsame]
    exact h

theorem Holds.afterWrites {P : Store → Prop} (hkeep : ∀ s t, Store.Change s t → P s → P t) :
    ∀ (run : List Write) {s : Session}, s.Holds P → (s.afterWrites run).Holds P
  | [], _, h => h
  | w :: run, _, h => Holds.afterWrites hkeep run (h.afterWrite hkeep w)

theorem coherent_afterWrites (run : List Write) : (fresh.afterWrites run).Holds Store.Coherent :=
  Holds.afterWrites (fun _ _ hchange h => h.change hchange) run (Holds.fresh .empty)

/-- **Along every run tables only get later.** -/
theorem later_afterWrites {run more : List Write} {store store' : Store}
    (h : (fresh.afterWrites run).image.tables = some store)
    (h' : (fresh.afterWrites (run ++ more)).image.tables = some store') :
    Store.Later store store' := by
  have hversion := (coherent_afterWrites run).image.1
  have hsaved : (fresh.afterWrites run).saved = none := saved_afterWrites run rfl
  have hstart : (fresh.afterWrites run).Holds (Store.Later store) :=
    ⟨⟨hversion, store, h, .refl store⟩, fun im him => by rw [hsaved] at him; cases him⟩
  have hend := Holds.afterWrites (fun _ _ hchange hlater => hlater.change hchange) more hstart
  rw [← afterWrites_append] at hend
  obtain ⟨-, final, hfinal, hlater⟩ := hend.image
  rw [h'] at hfinal
  cases hfinal
  exact hlater

/-- Without explicit transactions the session holds committed tables at every moment. -/
theorem committed_afterWrites (run : List Write) :
    ∃ store : Store, store.Coherent ∧
      fresh.afterWrites run = { image := ⟨Fault.newestVersion, some store⟩ } := by
  obtain ⟨hversion, store, htables, hcoherent⟩ := (coherent_afterWrites run).image
  have hsaved : (fresh.afterWrites run).saved = none := saved_afterWrites run rfl
  refine ⟨store, hcoherent, ?_⟩
  generalize fresh.afterWrites run = s at hversion htables hsaved ⊢
  obtain ⟨⟨version, tables⟩, saved⟩ := s
  subst hversion htables hsaved
  rfl

/-- **An identifier names one row for ever, and rows do not change.**  Take the committed tables
after each run of writes.  A row that is new at some moment has a larger identifier than any row of
its kind had earlier.  What is found under an identifier at two moments is the same row, and a row
that has gone does not come back.  A submission time that is there can be set to itself, which
changes nothing, and setting it to anything else is refused and changes nothing. -/
theorem ids_name_one_row :
    ∃ history : List Write → Store,
      (∀ run, fresh.afterWrites run = { image := ⟨Fault.newestVersion, some (history run)⟩ }) ∧
      (∀ run more rest e, ∀ r ∈ (history (run ++ more ++ rest)).rows e,
        r ∉ (history (run ++ more)).rows e →
          ∀ q ∈ (history run).rows e, Row.id e q < Row.id e r) ∧
      (∀ run more e id a b, (history run).find? e id = some a →
        (history (run ++ more)).find? e id = some b → a = b) ∧
      (∀ run more rest e id, (history run).find? e id ≠ none →
        (history (run ++ more)).find? e id = none →
          (history (run ++ more ++ rest)).find? e id = none) ∧
      ∀ run selected value, ∀ batches, (history run).selectBatches selected = batches →
        ((∀ b ∈ batches, value.toText? = some b.submittedAt) →
          setSubmittedAt selected value (fresh.afterWrites run) =
            .ok batches.length (fresh.afterWrites run)) ∧
        ((∃ b ∈ batches, value.toText? ≠ some b.submittedAt) →
          setSubmittedAt selected value (fresh.afterWrites run) =
            .error ⟨.immutable "batches.submitted_at is immutable", []⟩
              (fresh.afterWrites run)) := by
  choose history hcoherent hhistory using committed_afterWrites
  have htables (run : List Write) : (fresh.afterWrites run).image.tables = some (history run) := by
    rw [hhistory run]
  have hlater (run more : List Write) : (history run).Later (history (run ++ more)) :=
    later_afterWrites (htables run) (htables (run ++ more))
  refine ⟨history, hhistory, ?_, ?_, ?_, ?_⟩
  · intro run more rest e r hr hnew q hq
    have hbeyond := ((hlater (run ++ more) rest).old_or_beyond e r hr).resolve_left hnew
    have hle := (hlater run more).last_le e
    have hid := (hcoherent run).id_le_last e q hq
    omega
  · intro run more e id a b ha hb
    exact (hlater run more).find?_unique (hcoherent run) (hcoherent _) ha hb
  · intro run more rest e id hthen hgone
    obtain ⟨a, ha⟩ := Option.ne_none_iff_exists'.1 hthen
    obtain ⟨hmem, hid⟩ := (hcoherent run).find?_eq_some_iff.1 ha
    have hgiven := (hcoherent run).id_le_last e a hmem
    have hle := (hlater run more).last_le e
    exact (hlater (run ++ more) rest).find?_none (hcoherent _) (hcoherent _) (by omega) hgone
  · rintro run selected value _ rfl
    rw [setSubmittedAt_eq (htables run)]
    refine ⟨fun h => if_pos h, ?_⟩
    rintro ⟨b, hb, hother⟩
    exact if_neg fun h => hother (h b hb)

/-- A report is recorded, its architecture deleted, and the report recorded once more. -/
def recordedTwice : List Write :=
  [.request (.record .epoch oneSuccess), .request (.delete .arch 1),
   .request (.record .epoch oneSuccess)]

/-- The first batch goes with the architecture and stays away; the second one is found under a new
identifier, and its time cannot be set to nothing, neither on its own nor with all others. -/
theorem ids_of_recordedTwice :
    ∃ history : List Write → Store,
      fresh.afterWrites recordedTwice =
        { image := ⟨Fault.newestVersion, some (history recordedTwice)⟩ } ∧
      (history (recordedTwice.take 1)).find? .batch 1 ≠ none ∧
      (history (recordedTwice.take 2)).find? .batch 1 = none ∧
      (history recordedTwice).find? .batch 1 = none ∧
      ∃ b, (history recordedTwice).find? .batch 2 = some b ∧
        ∀ selected : StoredBatch → Bool, selected b = true →
          setSubmittedAt selected .null (fresh.afterWrites recordedTwice) =
            .error ⟨.immutable "batches.submitted_at is immutable", []⟩
              (fresh.afterWrites recordedTwice) := by
  obtain ⟨history, hhistory, -, -, hgone, hfrozen⟩ := ids_name_one_row
  -- what the tables hold is evaluated on the runs themselves
  have heval (run : List Write) (id : Int) (found : Bool)
      (h : (fresh.afterWrites run).image.tables.map (fun store => (store.find? .batch id).isSome) =
        some found) : ((history run).find? .batch id).isSome = found := by
    rw [hhistory run] at h
    exact Option.some.inj h
  have hfirst : (history (recordedTwice.take 1)).find? .batch 1 ≠ none :=
    Option.isSome_iff_ne_none.1 (heval _ 1 true (by decide +kernel))
  have hdeleted : (history (recordedTwice.take 2)).find? .batch 1 = none :=
    Option.not_isSome_iff_eq_none.1 (by rw [heval _ 1 false (by decide +kernel)]; decide)
  obtain ⟨b, hb⟩ := Option.isSome_iff_exists.1 (heval recordedTwice 2 true (by decide +kernel))
  refine ⟨history, hhistory _, hfirst, hdeleted, ?_, b, hb, fun selected hselected => ?_⟩
  · exact hgone (recordedTwice.take 1) [.request (.delete .arch 1)]
      [.request (.record .epoch oneSuccess)] .batch 1 hfirst hdeleted
  · have hmem : b ∈ (history recordedTwice).selectBatches selected :=
      List.mem_filter.2 ⟨List.mem_of_find?_eq_some hb, hselected⟩
    exact (hfrozen recordedTwice selected .null _ rfl).2 ⟨b, hmem, by simp [Cell.toText?]⟩

end Session

end FuzzLedger
