import FuzzLedger.Proofs.ReadBack
import FuzzLedger.Proofs.RoundTrip

/-!
# Identifiers and counts have 64 bits

The ledger's identifiers are unbounded numbers here, but a table gives out none beyond
`Store.maxId`, and a direct insertion brings 64-bit numbers along (`Event.FitsWords`).  So in every
ledger that a run leads to all identifiers have 64 bits (`words_steps`), those that rows refer to
included, and what is read from it can be written as JSON (`Words.isId_ids`).

The counts in a summary are bounded for the same reason: each row that recording counts takes an
identifier of its own (`Counts`), so no count exceeds the largest identifier
(`Action.inRange_of_recordReport`).
-/

set_option autoImplicit false

namespace FuzzLedger

open Json (IsId)

/-- A direct insertion gives numbers of 64 bits only. -/
def Event.FitsWords : Event → Prop
  | .insert _ _ cells => ∀ column n, (column, Cell.int n) ∈ cells → IsId n
  | _ => True

namespace Store

variable {s t : Store} {e : Entity}

/-! ## The invariant -/

/-- Every identifier in use has 64 bits, and so has every one that a table gives out. -/
structure Words (s : Store) : Prop where
  ids : ∀ e, ∀ r ∈ s.rows e, IsId (Row.id e r)
  last_nonneg : ∀ e, 0 ≤ (s.table e).last
  last_le : ∀ e, (s.table e).last ≤ maxId

theorem isId_of_nonneg {n : Int} (h : 0 ≤ n) (hle : n ≤ maxId) : IsId n := by
  have hmin : Int64.minValue.toInt < 0 := by decide
  exact ⟨by omega, hle⟩

theorem Words.empty : Words .empty := by
  have hrows : ∀ e, Store.empty.rows e = [] := fun e => by cases e <;> rfl
  have hlast : ∀ e, (Store.empty.table e).last = 0 := fun e => by cases e <;> rfl
  refine ⟨fun e r hr => ?_, fun e => ?_, fun e => ?_⟩
  · rw [hrows] at hr
    cases hr
  · rw [hlast]
  · rw [hlast]
    decide

theorem Words.isId_nextId (h : s.Words) {id : Int} (hnext : s.nextId? e = some id) : IsId id := by
  obtain ⟨hlt, rfl⟩ := nextId?_eq_some_iff.1 hnext
  have hnonneg := h.last_nonneg e
  exact isId_of_nonneg (by omega) (by omega)

theorem Words.add (h : s.Words) {r : Row e} (hid : IsId (Row.id e r)) : (s.add e r).Words := by
  refine ⟨fun f q hq => ?_, fun f => ?_, fun f => ?_⟩
  · rcases mem_rows_add.1 hq with hq | hq
    · exact h.ids f q hq
    · cases hq
      exact hid
  · have hnonneg := h.last_nonneg f
    have hown := h.last_nonneg e
    rw [last_add]
    split <;> omega
  · have hle := h.last_le f
    have hown := h.last_le e
    have hid : Row.id e r ≤ maxId := hid.2
    rw [last_add]
    split <;> omega

theorem Words.spendId (h : s.Words) {id : Int} (hid : IsId id) : (s.spendId e id).Words := by
  refine ⟨fun f q hq => ?_, fun f => ?_, fun f => ?_⟩
  · rw [rows_spendId] at hq
    exact h.ids f q hq
  · have hnonneg := h.last_nonneg f
    have hown := h.last_nonneg e
    rw [last_spendId]
    split <;> omega
  · have hle := h.last_le f
    have hown := h.last_le e
    have hid : id ≤ maxId := hid.2
    rw [last_spendId]
    split <;> omega

theorem Words.growth (h : s.Words) (hgrowth : Growth Regular s t) : t.Words := by
  cases hgrowth with
  | add _ hregular => exact h.add (h.isId_nextId hregular.1)
  | spend hnext => exact h.spendId (h.isId_nextId hnext)

theorem Words.change (h : s.Words) (hchange : Change s t) : t.Words := by
  cases hchange with
  | grow hgrowth => exact h.growth hgrowth
  | remove _ =>
    refine ⟨fun f q hq => ?_, fun f => ?_, fun f => ?_⟩
    · exact h.ids f q (mem_rows_without.1 hq).1
    · rw [last_without]
      exact h.last_nonneg f
    · rw [last_without]
      exact h.last_le f

end Store

/-! ## Direct insertions -/

/-- A double that an integer column takes as a whole number has 64 bits. -/
theorem Double.isId_of_whole? {x : Double} {n : Int} (h : x.whole? = some n) : IsId n := by
  cases x with
  | infinite negative => cases h
  | finite x =>
    obtain ⟨⟨-, hlower, hupper⟩, hn⟩ := Option.ite_none_right_eq_some.1 h
    cases hn
    exact ⟨hlower.le, hupper.le⟩

theorem Numeral.isId_of_plain? {numeral : Numeral} {n : Int} (h : numeral.plain? = some n) :
    IsId n := by
  obtain ⟨⟨-, hrange⟩, hn⟩ := Option.ite_none_right_eq_some.1 h
  cases hn
  exact hrange

theorem NumberCell.isId_of_ofDouble {x : Double} {n : Int} (h : ofDouble x = .int n) : IsId n := by
  unfold ofDouble at h
  split at h
  · rename_i hwhole
    cases h
    exact Double.isId_of_whole? hwhole
  · cases h

/-- A whole number in an integer column was given as a number of 64 bits, unless it was given as
one. -/
theorem Cell.isId_of_toNumber? {cell : Cell} {id : Int} (hcell : ∀ n, cell = .int n → IsId n)
    (h : cell.toNumber? = some (.int id)) : IsId id := by
  cases cell with
  | null => cases h
  | int n =>
    cases h
    exact hcell id rfl
  | real x => exact NumberCell.isId_of_ofDouble (Option.some.inj h)
  | text s =>
    have htext : NumberCell.ofText s = .int id := Option.some.inj h
    unfold NumberCell.ofText at htext
    split at htext
    · cases htext
    · split at htext
      · rename_i hplain
        cases htext
        exact Numeral.isId_of_plain? hplain
      · exact NumberCell.isId_of_ofDouble htext
  | octets bytes => cases h

namespace Cells

variable {cells : Cells} {s : Store} {e : Entity} {id : Int}

theorem id_of_toRow {now : Stamp} {r : Row e} (h : cells.toRow now id e = .ok r) :
    Row.id e r = id := by
  cases e
  all_goals
    simp only [toRow, Bind.bind, Except.bind] at h
    repeat' split at h
    all_goals cases h
    all_goals rfl

/-- What is given for an identifier is one of the cells, or nothing. -/
theorem mem_of_identifier {cell : Cell} (h : cells.identifier e = cell) :
    cell = .null ∨ ∃ column, (column, cell) ∈ cells := by
  subst h
  unfold identifier
  cases hlookup : (cells.named e).reverse.lookup e.idColumn with
  | none => exact .inl rfl
  | some cell =>
    obtain ⟨before, after, hcells, -⟩ := List.lookup_eq_some_iff.1 hlookup
    have hmem : (e.idColumn, cell) ∈ cells.named e := by
      rw [← List.mem_reverse, hcells]
      exact List.mem_append_right _ List.mem_cons_self
    obtain ⟨⟨column, given⟩, hgiven, heq⟩ := List.mem_map.1 hmem
    obtain rfl : given = cell := (Prod.mk.inj heq).2
    exact .inr ⟨column, hgiven⟩

/-- The identifier under which a direct insertion puts its row: the given one or the next one. -/
def idIn (cells : Cells) (s : Store) (e : Entity) : Option Int :=
  match (cells.identifier e).toNumber? with
  | none => s.nextId? e
  | some number => number.int?

theorem idIn_eq_some (h : cells.idIn s e = some id) :
    (cells.identifier e).toNumber? = some (.int id) ∨ s.nextId? e = some id := by
  unfold idIn at h
  split at h
  · exact .inr h
  · rename_i number hnumber
    cases number with
    | int n =>
      cases h
      exact .inl hnumber
    | real x => cases h
    | other cell => cases h

end Cells

/-- What a direct insertion may come to: nothing, or a row under the identifier that it finds. -/
def Store.InsertedFrom (cells : Cells) (e : Entity) (s t : Store) : Prop :=
  t = s ∨ ∃ r, t = s.add e r ∧ cells.idIn s e = some (Row.id e r)

namespace Action

/-- An identifier is found without a change, or none is. -/
theorem giveId_cases (e : Entity) (cells : Cells) (s : Store) :
    (∃ id, cells.idIn s e = some id ∧ giveId e (cells.identifier e) s = .ok id s) ∨
      cells.idIn s e = none ∧ ∃ f, giveId e (cells.identifier e) s = .error f s := by
  unfold giveId Cells.idIn
  cases (cells.identifier e).toNumber? with
  | none =>
    simp only [nextId]
    cases s.nextId? e with
    | none => exact .inr ⟨rfl, _, rfl⟩
    | some id => exact .inl ⟨id, rfl, rfl⟩
  | some number =>
    cases number with
    | int id => exact .inl ⟨id, rfl, rfl⟩
    | real x => exact .inr ⟨rfl, _, rfl⟩
    | other cell => exact .inr ⟨rfl, _, rfl⟩

/-- A row with known columns that has an identifier is added, unless it violates a rule; the last
rule is that it refers to whole numbers. -/
theorem insertCells_eq_of_toRow {now : Stamp} {e : Entity} {cells : Cells} {s : Store}
    {id : Int} {r : Row e} (hknown : cells.unknown? e = none) (hid : cells.idIn s e = some id)
    (hrow : cells.toRow now id e = .ok r) :
    insertCells now e cells s =
      match s.violation? e r with
      | some v => .error (.ofViolation v) s
      | none =>
        if cells.refers e then .ok id (s.add e r)
        else .error (.ofViolation .danglingReference) s := by
  rcases giveId_cases e cells s with ⟨id', hid', hgive⟩ | ⟨hnone, -⟩
  · rw [hid] at hid'
    cases hid'
    simp only [insertCells, hknown, hrow, Bind.bind, EStateM.bind, hgive]
    cases cells.refers e with
    | true =>
      simp only [if_true, EStateM.bind, insert]
      cases s.violation? e r <;> rfl
    | false =>
      simp only [Bool.false_eq_true, if_false, EStateM.bind, refuse]
      cases s.violation? e r <;> rfl
  · rw [hid] at hnone
    cases hnone

theorem insertedFrom_insertCells (now : Stamp) (e : Entity) (cells : Cells) (s : Store) :
    Store.InsertedFrom cells e s (finalState (insertCells now e cells s)) := by
  cases hknown : cells.unknown? e with
  | some name =>
    simp only [insertCells, hknown]
    exact .inl rfl
  | none =>
    rcases giveId_cases e cells s with ⟨id, hid, hgive⟩ | ⟨-, f, hgive⟩
    · cases hrow : cells.toRow now id e with
      | error v =>
        simp only [insertCells, hknown, hrow, Bind.bind, EStateM.bind, hgive]
        exact .inl rfl
      | ok r =>
        rw [insertCells_eq_of_toRow hknown hid hrow]
        rw [← Cells.id_of_toRow hrow] at hid
        cases s.violation? e r with
        | some v => exact .inl rfl
        | none =>
          cases cells.refers e with
          | true => exact .inr ⟨r, rfl, hid⟩
          | false => exact .inl rfl
    · simp only [insertCells, hknown, Bind.bind, EStateM.bind, hgive]
      exact .inl rfl

end Action

theorem Store.Words.insertedFrom {s t : Store} {cells : Cells} {e : Entity} (h : s.Words)
    (hcells : ∀ column n, (column, Cell.int n) ∈ cells → IsId n)
    (hinserted : InsertedFrom cells e s t) : t.Words := by
  rcases hinserted with rfl | ⟨r, rfl, hid⟩
  · exact h
  · rcases Cells.idIn_eq_some hid with hgiven | hnext
    · refine h.add (Cell.isId_of_toNumber? (fun n hn => ?_) hgiven)
      rcases Cells.mem_of_identifier hn with hnull | ⟨column, hmem⟩
      · cases hnull
      · exact hcells column n hmem
    · exact h.add (h.isId_nextId hnext)

/-- **All identifiers have 64 bits after every run.** -/
theorem Session.words_steps {run : List Event} (hrun : ∀ event ∈ run, event.FitsWords) :
    (fresh.steps run).Holds Store.Words := by
  refine Holds.steps (fun event hevent s h => ?_) (Holds.fresh .empty)
  refine h.step .empty (fun r _ => h.after (fun _ _ hchange hs => hs.change hchange) r) ?_
  rintro now e cells rfl
  refine h.write (fun store hstore => ?_) _
  exact hstore.insertedFrom (hrun _ hevent) (Action.insertedFrom_insertCells now e cells store)

/-! ## What is read -/

/-- The identifiers of a row as it is read are its own and those that it refers to. -/
theorem Item.ids_of_read {e : Entity} {r : Row e} {x : Item e} (h : Row.read e r = .ok x) :
    Item.ids e x = Row.id e r :: (Row.references e r).map Prod.snd := by
  cases e with
  | user => rw [User.read_eq_ok_iff.1 h]; rfl
  | arch => rw [Arch.read_eq_ok_iff.1 h]; rfl
  | host => rw [Host.read_eq_ok_iff.1 h]; rfl
  | batch =>
    obtain ⟨time, rfl, -⟩ := StoredBatch.read_eq_ok_iff.1 h
    rfl
  | opcode => rw [Opcode.read_eq_ok_iff.1 h]; rfl
  | testSuccess => rw [StoredSuccess.read_eq_ok_iff.1 h]; rfl
  | testFailure => rw [TestFailure.read_eq_ok_iff.1 h]; rfl
  | testFailureState => rw [TestFailureState.read_eq_ok_iff.1 h]; rfl

namespace Store

variable {s t : Store} {e : Entity}

/-- A coherent store whose identifiers have 64 bits. -/
def Sized (s : Store) : Prop := s.Coherent ∧ s.Words

theorem Sized.change (h : s.Sized) (hchange : Change s t) : t.Sized :=
  ⟨h.1.change hchange, h.2.change hchange⟩

/-- A row refers to rows that exist, so to identifiers of 64 bits. -/
theorem Sized.isId_ids (h : s.Sized) {r : Row e} (hr : r ∈ s.rows e) {x : Item e}
    (hread : Row.read e r = .ok x) : ∀ n ∈ Item.ids e x, IsId n := by
  obtain ⟨hcoherent, hwords⟩ := h
  rw [Item.ids_of_read hread]
  refine List.forall_mem_cons.2 ⟨hwords.ids e r hr, fun n hn => ?_⟩
  obtain ⟨⟨p, id⟩, href, rfl⟩ := List.mem_map.1 hn
  obtain ⟨q, hq, hid⟩ := has_iff.1 (hcoherent.parents e r hr (p, id) href)
  exact hid ▸ hwords.ids p q hq

end Store

theorem Session.Holds.and {P Q : Store → Prop} {s : Session} (h : s.Holds P) (h' : s.Holds Q) :
    s.Holds fun store => P store ∧ Q store := by
  have hboth {im : Image} (him : im.Holds P) (him' : im.Holds Q) :
      im.Holds fun store => P store ∧ Q store := by
    obtain ⟨hversion, store, htables, hP⟩ := him
    obtain ⟨-, store', htables', hQ⟩ := him'
    rw [htables] at htables'
    cases htables'
    exact ⟨hversion, store, htables, hP, hQ⟩
  exact ⟨hboth h.image h'.image, fun im him => hboth (h.saved im him) (h'.saved im him)⟩

theorem Session.sized_steps {run : List Event} (hrun : ∀ event ∈ run, event.FitsWords) :
    (fresh.steps run).Holds Store.Sized :=
  (coherent_steps run).and (words_steps hrun)

/-! ## Counts -/

/-- Every row counted since has taken an identifier of its own. -/
structure Counts (tally tally' : Tally) (s t : Store) : Prop where
  successes : tally'.successes + s.successes.last = tally.successes + t.successes.last
  failures : tally'.failures + s.failures.last = tally.failures + t.failures.last
  states : tally'.states + s.states.last = tally.states + t.states.last

namespace Counts

variable {tally tally' tally'' : Tally} {s t u : Store}

theorem refl : Counts tally tally s s := ⟨rfl, rfl, rfl⟩

theorem trans (h : Counts tally tally' s t) (h' : Counts tally' tally'' t u) :
    Counts tally tally'' s u := by
  obtain ⟨hsuccesses, hfailures, hstates⟩ := h
  obtain ⟨hsuccesses', hfailures', hstates'⟩ := h'
  exact ⟨by omega, by omega, by omega⟩

theorem opcode (h : Store.GrowsIn .opcode s t) : Counts tally tally s t := by
  have hsuccesses : t.successes = s.successes := h.frame .testSuccess (by decide)
  have hfailures : t.failures = s.failures := h.frame .testFailure (by decide)
  have hstates : t.states = s.states := h.frame .testFailureState (by decide)
  constructor <;> simp only [hsuccesses, hfailures, hstates]

theorem success {r : StoredSuccess} (h : Store.Appended .testSuccess s t r) :
    Counts tally { tally with successes := tally.successes + 1 } s t := by
  have hsuccesses : t.successes.last = s.successes.last + 1 := h.last_eq
  have hfailures : t.failures = s.failures := h.frame .testFailure (by decide)
  have hstates : t.states = s.states := h.frame .testFailureState (by decide)
  constructor
  · simp only [hsuccesses]; omega
  · simp only [hfailures]
  · simp only [hstates]

theorem failure {r : TestFailure TextCell} (h : Store.Appended .testFailure s t r) :
    Counts tally { tally with failures := tally.failures + 1 } s t := by
  have hsuccesses : t.successes = s.successes := h.frame .testSuccess (by decide)
  have hfailures : t.failures.last = s.failures.last + 1 := h.last_eq
  have hstates : t.states = s.states := h.frame .testFailureState (by decide)
  constructor
  · simp only [hsuccesses]
  · simp only [hfailures]; omega
  · simp only [hstates]

theorem state {r : TestFailureState TextCell} (h : Store.Appended .testFailureState s t r) :
    Counts tally { tally with states := tally.states + 1 } s t := by
  have hsuccesses : t.successes = s.successes := h.frame .testSuccess (by decide)
  have hfailures : t.failures = s.failures := h.frame .testFailure (by decide)
  have hstates : t.states.last = s.states.last + 1 := h.last_eq
  constructor
  · simp only [hsuccesses]
  · simp only [hfailures]
  · simp only [hstates]; omega

/-- No count exceeds the largest identifier. -/
theorem lt_size (h : Counts {} tally s t) (hs : s.Words) (ht : t.Words) :
    tally.successes < UInt64.size ∧ tally.failures < UInt64.size ∧ tally.states < UInt64.size := by
  obtain ⟨hsuccesses, hfailures, hstates⟩ := h
  have hmax : Store.maxId < UInt64.size := by decide
  have hnonneg (e : Entity) : 0 ≤ (s.table e).last := hs.last_nonneg e
  have hle (e : Entity) : (t.table e).last ≤ Store.maxId := ht.last_le e
  have h₁ := hnonneg .testSuccess
  have h₂ := hnonneg .testFailure
  have h₃ := hnonneg .testFailureState
  have h₁' := hle .testSuccess
  have h₂' := hle .testFailure
  have h₃' := hle .testFailureState
  simp only [Store.table] at h₁ h₂ h₃ h₁' h₂' h₃'
  simp only [Nat.cast_zero] at hsuccesses hfailures hstates
  refine ⟨?_, ?_, ?_⟩ <;> omega

end Counts

namespace Action

variable {s t : Store} {batchId archId : Int}

theorem counts_recordDiffs (index : Nat) (failureId : Int) :
    ∀ {diffs : List StateDiff} {tally tally' : Tally} {s t : Store}, s.Coherent →
      recorder.recordDiffs index failureId tally diffs s = .ok tally' t →
      Counts tally tally' s t
  | [], _, _, _, _, _, hok => by
    cases hok
    exact .refl
  | _ :: _, _, _, _, _, h, hok => by
    obtain ⟨row, s', hadd, hrest⟩ := bind_eq_ok hok
    obtain ⟨happ, -⟩ := addTestFailureState_ok h (within_eq_ok hadd)
    exact (Counts.state happ).trans (counts_recordDiffs index failureId happ.coherent hrest)

theorem counts_recordOutcome {index : Nat} {entry : Entry} {opcodeId : Int} {tally tally' : Tally}
    (h : s.Coherent)
    (hok : recorder.recordOutcome index batchId opcodeId tally entry s = .ok tally' t) :
    Counts tally tally' s t := by
  cases entry with
  | success name count =>
    obtain ⟨row, s', hadd, hret⟩ := bind_eq_ok hok
    cases hret
    exact .success (addTestSuccess_ok h hadd)
  | failure name pretty arguments state =>
    obtain ⟨row, s', hadd, hok⟩ := bind_eq_ok hok
    obtain ⟨between, t', hdiffs, hret⟩ := bind_eq_ok hok
    cases hret
    obtain ⟨happ, -⟩ := addTestFailure_ok h (within_eq_ok hadd)
    -- the failure is counted after its differences, but took its identifier before them
    have hfailure : Counts tally _ s s' := .failure happ
    obtain ⟨hsuccesses, hfailures, hstates⟩ := counts_recordDiffs index row.id happ.coherent hdiffs
    refine hfailure.trans ⟨hsuccesses, ?_, hstates⟩
    simp only [Nat.cast_add, Nat.cast_one]
    omega

theorem counts_recordEntries :
    ∀ {entries : List Entry} {index : Nat} {known : KnownOpcodes} {tally tally' : Tally}
      {s t : Store}, s.Coherent → s.Remembers archId known →
      recorder.recordEntries batchId archId index known tally entries s = .ok tally' t →
      Counts tally tally' s t
  | [], _, _, _, _, _, _, _, _, hok => by
    cases hok
    exact .refl
  | _ :: _, _, _, _, _, _, _, h, hknown, hok => by
    obtain ⟨resolved, s₁, hresolve, hok⟩ := bind_eq_ok hok
    obtain ⟨between, s₂, houtcome, hrest⟩ := bind_eq_ok hok
    obtain ⟨hopcode, hhas, hknown⟩ := resolveOpcode_ok h hknown (within_eq_ok hresolve)
    obtain ⟨hentry, hle, -⟩ := recordEntry_ok hopcode hhas houtcome
    have houtcome := counts_recordOutcome hopcode.coherent houtcome
    have hrest := counts_recordEntries hentry.coherent
      (fun name id hlookup => (hknown name id hlookup).mono hle) hrest
    exact (Counts.opcode hopcode).trans (houtcome.trans hrest)

theorem words_of_grows {α : Type} {a : Action α} (ha : Grows a) (h : s.Words) {x : α}
    (hok : a s = .ok x t) : t.Words :=
  Session.keeps_of_ok (fun _ _ hgrowth hs => Store.Words.growth hs hgrowth) ha hok h

/-- **The numbers of a summary have 64 bits.** -/
theorem inRange_of_recordReport {now : Stamp} {r : Report} {m : Summary} (h : s.Sized)
    (hok : recordReport now r s = .ok m t) : m.InRange := by
  obtain ⟨hcoherent, hwords⟩ := h
  obtain ⟨user, s₁, huser, hok⟩ := bind_eq_ok hok
  obtain ⟨arch, s₂, harch, hok⟩ := bind_eq_ok hok
  obtain ⟨host, s₃, hhost, hok⟩ := bind_eq_ok hok
  obtain ⟨batch, s₄, hbatch, hok⟩ := bind_eq_ok hok
  obtain ⟨tally, s₅, hentries, hret⟩ := bind_eq_ok hok
  cases hret
  have hwords := words_of_grows (.within (grows_ensureUser _).grows _) hwords huser
  have hwords := words_of_grows (.within (grows_ensureArch _).grows _) hwords harch
  have hwords := words_of_grows (.within (grows_ensureHost _ _).grows _) hwords hhost
  have hwords := words_of_grows (grows_createBatch _ _).grows hwords hbatch
  have hwords' := words_of_grows (grows_recordEntries _ _ _ _ _ _) hwords hentries
  obtain ⟨huser, -⟩ := ensureUser_ok hcoherent (within_eq_ok huser)
  obtain ⟨harch, -⟩ := ensureArch_ok huser.coherent (within_eq_ok harch)
  obtain ⟨hhost, -⟩ := ensureHost_ok harch.coherent (within_eq_ok hhost)
  have happ := createBatch_ok hhost.coherent hbatch
  have hcounts := counts_recordEntries happ.coherent (fun _ _ hlookup => by cases hlookup) hentries
  exact ⟨hwords.ids .batch _ happ.mem_self, hcounts.lt_size hwords hwords'⟩

end Action

namespace Session

variable {s t : Session}

/-- A request leaves a ledger whose identifiers have 64 bits. -/
theorem Holds.sized_of_perform (h : s.Holds Store.Sized) {r : Request} {answer : Answer}
    (hok : perform r s = .ok answer t) : t.Holds Store.Sized := by
  have hafter := h.after (fun _ _ hchange hsized => hsized.change hchange) r
  rw [after_eq, hok] at hafter
  exact hafter

theorem Holds.inRange_of_record (h : s.Holds Store.Sized) {now : Stamp} {r : Report} {m : Summary}
    (hok : record now r s = .ok m t) : m.InRange ∧ t.Holds Store.Sized := by
  obtain ⟨-, store, htables, hsized⟩ := h.image
  rcases record_cases now r s with ⟨f, hf⟩ | ⟨-, m', store', store'', htables', ha, hrecord⟩
  · rw [hf] at hok
    cases hok
  · have hperform : perform (.record now r) s = .ok (.summary m) t := by
      simp only [perform, Bind.bind, EStateM.bind, hok]
      rfl
    rw [hrecord] at hok
    cases hok
    rw [htables] at htables'
    cases htables'
    exact ⟨Action.inRange_of_recordReport hsized ha, h.sized_of_perform hperform⟩

end Session

end FuzzLedger
