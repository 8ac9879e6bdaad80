import FuzzLedger.Proofs.Recording
import FuzzLedger.Proofs.Run

/-!
# Remembering opcodes changes nothing

Recording looks up an opcode once per report and remembers its identifier.  The reference asks for
the opcode of every entry (`Recorder.recordReportAsking`).

* `Store.RemembersFirst` — what is remembered is what asking would find.  New rows go to the end of
  their table and asking finds the first row, so this stays true while recording goes on
  (`RemembersFirst.mono`).
* `resolveOpcode_cases` — hence resolving a name and asking for it come to the same.
* `recordEntries_eq_asking` — hence the two ways of recording agree, entry by entry, also in where
  and how they fail.
* `record_eq_recordAsking` — so they do as transactions, after every run.
-/

set_option autoImplicit false

namespace FuzzLedger

/-! ## Recording without a memory -/

namespace Recorder

variable {m : Type → Type} [Monad m] (w : Recorder m)

/-- Stores the entries of a report from the given index on, asking for the opcode of each. -/
def recordEntriesAsking (batchId archId : Int) : Nat → Tally → List Entry → m Tally
  | _, tally, [] => pure tally
  | index, tally, entry :: entries => do
    let opcode ← w.within s!"entry {index}" (w.ensureOpcode entry.opcode archId)
    let tally ← w.recordOutcome index batchId opcode.id tally entry
    recordEntriesAsking batchId archId (index + 1) tally entries

/-- Stores a report, asking for the opcode of each entry. -/
def recordReportAsking (now : Stamp) (r : Report) : m Summary := do
  let user ← w.within "user" (w.ensureUser r.user)
  let arch ← w.within "arch" (w.ensureArch r.arch)
  let host ← w.within "testing host" (w.ensureHost r.testingHost arch.id)
  let batch ← w.createBatch now ⟨r.fuzzingHost, host.id, user.id⟩
  let tally ← w.recordEntriesAsking batch.id arch.id 0 {} r.entries
  return ⟨batch.id, tally.successes, tally.failures, tally.states⟩

end Recorder

/-- Stores a report in a transaction of its own, asking for the opcode of each entry. -/
def Session.recordAsking (now : Stamp) (r : Report) : Call Summary :=
  transact (recorder.recordReportAsking now r)

/-! ## What asking finds -/

namespace Store

variable {s t : Store} {archId : Int} {name : String}

/-- The first opcode with a name on an architecture. -/
def firstOpcode? (s : Store) (archId : Int) (name : String) : Option (Opcode TextCell) :=
  s.opcodes.rows.find? fun o => o.archId == archId && o.name == .text name

/-- Rows at the end do not come before the first. -/
theorem firstOpcode?_of_prefix (h : s.opcodes.rows <+: t.opcodes.rows) {o : Opcode TextCell}
    (hfirst : s.firstOpcode? archId name = some o) : t.firstOpcode? archId name = some o := by
  obtain ⟨rows, hrows⟩ := h
  rw [firstOpcode?] at hfirst
  rw [firstOpcode?, ← hrows, List.find?_append, hfirst]
  rfl

/-- The identifiers that are remembered are those of the rows that asking would find. -/
def RemembersFirst (s : Store) (archId : Int) (known : KnownOpcodes) : Prop :=
  ∀ name id, known.lookup name = some id → ∃ o, s.firstOpcode? archId name = some o ∧ o.id = id

theorem RemembersFirst.nil : s.RemembersFirst archId [] := by
  intro name id hlookup
  cases hlookup

theorem RemembersFirst.mono {known : KnownOpcodes} (h : s.RemembersFirst archId known)
    (hle : s.opcodes.rows <+: t.opcodes.rows) : t.RemembersFirst archId known := by
  intro name id hlookup
  obtain ⟨o, hfirst, hid⟩ := h name id hlookup
  exact ⟨o, firstOpcode?_of_prefix hle hfirst, hid⟩

theorem RemembersFirst.cons {known : KnownOpcodes} (h : s.RemembersFirst archId known)
    {o : Opcode TextCell} (hfirst : s.firstOpcode? archId name = some o) :
    s.RemembersFirst archId ((name, o.id) :: known) := by
  intro other id hlookup
  rw [List.lookup_cons] at hlookup
  split at hlookup
  · rename_i heq
    cases hlookup
    rw [beq_iff_eq.1 heq]
    exact ⟨o, hfirst, rfl⟩
  · exact h other id hlookup

end Store

namespace Action

variable {α β : Type} {s t : Store} {batchId archId : Int} {name : String}

theorem ensureOpcode_eq (name : String) (archId : Int) (s : Store) :
    ensureOpcode name archId s =
      match s.firstOpcode? archId name with
      | some o => .ok ⟨o.id, name, archId⟩ s
      | none => createOpcode name archId s := by
  have hget : (get : Action Store) s = .ok s s := rfl
  simp only [ensureOpcode, Bind.bind, EStateM.bind, hget, Store.firstOpcode?]
  cases s.opcodes.rows.find? fun o => o.archId == archId && o.name == .text name <;> rfl

/-- Whoever asked for an opcode gets the same one when asking again. -/
theorem firstOpcode?_of_ensureOpcode {o : Opcode} (h : s.Coherent)
    (hok : ensureOpcode name archId s = .ok o t) : t.firstOpcode? archId name = some o.stored := by
  rw [ensureOpcode_eq] at hok
  cases hfirst : s.firstOpcode? archId name with
  | some q =>
    have hkey : q.archId = archId ∧ q.name = .text name := by
      simpa using List.find?_some hfirst
    simp only [hfirst] at hok
    cases hok
    rw [hfirst, Opcode.stored, ← hkey.1, ← hkey.2]
  | none =>
    -- the row was added at the end, and no row before it has its name
    simp only [hfirst] at hok
    obtain ⟨-, hok⟩ := checkLength_bind_eq_ok hok
    obtain ⟨row, s', hinsert, hret⟩ := bind_eq_ok hok
    cases hret
    obtain ⟨happ, hbuild⟩ := insertNew_ok (fun _ => rfl) h hinsert
    have hrows : t.opcodes.rows = s.opcodes.rows ++ [row] := happ.rows_eq
    have hname : row.name = .text name := by rw [hbuild]
    have harch : row.archId = archId := by rw [hbuild]
    rw [Store.firstOpcode?] at hfirst
    rw [Store.firstOpcode?, hrows, List.find?_append, hfirst]
    simp [hname, harch, Opcode.stored, ← hbuild]

/-- **Resolving an opcode comes to the same as asking for it**, and what is remembered afterwards is
still right. -/
theorem resolveOpcode_cases {known : KnownOpcodes} (h : s.Coherent)
    (hknown : s.RemembersFirst archId known) (name : String) :
    (∃ o known' t, recorder.resolveOpcode archId known name s = .ok (o.id, known') t ∧
      ensureOpcode name archId s = .ok o t ∧ t.RemembersFirst archId known') ∨
    ∃ f t, recorder.resolveOpcode archId known name s = .error f t ∧
      ensureOpcode name archId s = .error f t := by
  unfold Recorder.resolveOpcode
  cases hlookup : known.lookup name with
  | some id =>
    obtain ⟨o, hfirst, rfl⟩ := hknown name id hlookup
    exact .inl ⟨⟨o.id, name, archId⟩, known, s, rfl, by rw [ensureOpcode_eq, hfirst], hknown⟩
  | none =>
    have hresolve : recorder.ensureOpcode = ensureOpcode := rfl
    simp only [hresolve, Bind.bind, EStateM.bind]
    cases hensure : ensureOpcode name archId s with
    | ok o t =>
      have hgrows := (ensureOpcode_ok h hensure).1
      have hfirst := firstOpcode?_of_ensureOpcode h hensure
      exact .inl ⟨o, (name, o.id) :: known, t, rfl, rfl, (hknown.mono hgrows.rows).cons hfirst⟩
    | error f t => exact .inr ⟨f, t, rfl, rfl⟩

/-! ## Entries and reports -/

theorem within_of_ok {a : Action α} {x : α} (h : a s = .ok x t) (context : String) :
    recorder.within context a s = .ok x t := by
  simp only [recorder, within, h]

theorem within_of_error {a : Action α} {f : Failure} (h : a s = .error f t) (context : String) :
    recorder.within context a s = .error (f.within context) t := by
  simp only [recorder, within, h]

/-- **The entries are recorded alike**, whether opcodes are remembered or asked for. -/
theorem recordEntries_eq_asking (batchId archId : Int) :
    ∀ (entries : List Entry) (index : Nat) (known : KnownOpcodes) (tally : Tally) {s : Store},
      s.Coherent → s.RemembersFirst archId known →
      recorder.recordEntries batchId archId index known tally entries s =
        recorder.recordEntriesAsking batchId archId index tally entries s
  | [], _, _, _, _, _, _ => rfl
  | entry :: entries, index, known, tally, s, h, hknown => by
    have hensure : recorder.ensureOpcode = ensureOpcode := rfl
    simp only [Recorder.recordEntries, Recorder.recordEntriesAsking, Bind.bind, EStateM.bind,
      hensure]
    rcases resolveOpcode_cases h hknown entry.opcode with
      ⟨o, known', t, hresolve, hask, hknown'⟩ | ⟨f, t, hresolve, hask⟩
    · simp only [within_of_ok hresolve, within_of_ok hask]
      obtain ⟨hgrows, hmem, hname, harch⟩ := ensureOpcode_ok h hask
      have hhas : t.HasOpcode archId o.id entry.opcode := by
        rw [← hname, ← harch]
        exact hmem
      cases houtcome : recorder.recordOutcome index batchId o.id tally entry t with
      | error f u => rfl
      | ok tally' u =>
        obtain ⟨hrec, hle, -⟩ := recordEntry_ok (.refl hgrows.coherent) hhas houtcome
        exact recordEntries_eq_asking batchId archId entries (index + 1) known' tally' hrec.coherent
          (hknown'.mono hle)
    · simp only [within_of_error hresolve, within_of_error hask]

/-- Two sequences that begin alike agree if they do after a success of the beginning. -/
theorem bind_congr_of_ok {a : Action α} {f g : α → Action β}
    (h : ∀ x t, a s = .ok x t → f x t = g x t) : (a >>= f) s = (a >>= g) s := by
  simp only [Bind.bind, EStateM.bind]
  cases ha : a s with
  | ok x t => exact h x t ha
  | error fault t => rfl

theorem coherent_of_grows {a : Action α} (ha : Grows a) (h : s.Coherent) {x : α}
    (hok : a s = .ok x t) : t.Coherent :=
  Session.keeps_of_ok (fun _ _ hgrowth hs => Store.Coherent.growth hs hgrowth) ha hok h

/-- A report is recorded alike. -/
theorem recordReport_eq_asking (h : s.Coherent) (now : Stamp) (r : Report) :
    recordReport now r s = recorder.recordReportAsking now r s := by
  refine bind_congr_of_ok fun user s₁ huser => ?_
  have h₁ := coherent_of_grows (.within (grows_ensureUser _).grows _) h huser
  refine bind_congr_of_ok fun arch s₂ harch => ?_
  have h₂ := coherent_of_grows (.within (grows_ensureArch _).grows _) h₁ harch
  refine bind_congr_of_ok fun host s₃ hhost => ?_
  have h₃ := coherent_of_grows (.within (grows_ensureHost _ _).grows _) h₂ hhost
  refine bind_congr_of_ok fun batch s₄ hbatch => ?_
  have h₄ := coherent_of_grows (grows_createBatch _ _).grows h₃ hbatch
  have hentries := recordEntries_eq_asking batch.id arch.id r.entries 0 [] {} h₄ .nil
  simp only [Bind.bind, EStateM.bind, hentries]

end Action

/-! ## Transactions -/

namespace Session

theorem carries_recordEntriesAsking (batchId archId : Int) :
    ∀ (entries : List Entry) (index : Nat) (tally : Tally),
      Carries (Action.recorder.recordEntriesAsking batchId archId index tally entries)
        (recorder.recordEntriesAsking batchId archId index tally entries)
  | [], _, tally => Carries.pure tally
  | entry :: entries, index, tally =>
    Carries.bind (Carries.within (carries_write _ _) _) fun opcode =>
      Carries.bind (carries_recordOutcome index batchId opcode.id tally entry) fun _ =>
        carries_recordEntriesAsking batchId archId entries (index + 1) _

theorem carries_recordReportAsking (now : Stamp) (r : Report) :
    Carries (Action.recorder.recordReportAsking now r) (recorder.recordReportAsking now r) :=
  Carries.bind (Carries.within (carries_write _ _) _) fun _ =>
    Carries.bind (Carries.within (carries_write _ _) _) fun _ =>
      Carries.bind (Carries.within (carries_write _ _) _) fun _ =>
        Carries.bind (carries_act _ _) fun _ =>
          Carries.bind (carries_recordEntriesAsking _ _ _ _ _) fun _ => Carries.pure _

/-- **Remembering opcodes changes nothing.**  After every run, recording a report and recording it
while asking for the opcode of each entry give the same summary or the same failure with its
contexts, and leave the same session: the tables with their rows and sequences, and an open
transaction as it was. -/
theorem record_eq_recordAsking (run : List Event) (now : Stamp) (r : Report) :
    record now r (fresh.steps run) = recordAsking now r (fresh.steps run) := by
  rcases Option.eq_none_or_eq_some (fresh.steps run).saved with hsaved | ⟨im, hsaved⟩
  · obtain ⟨-, store, htables, hcoherent⟩ := (coherent_steps run).image
    rw [record, recordAsking, transact_of_carries (carries_recordReport now r) hsaved htables,
      transact_of_carries (carries_recordReportAsking now r) hsaved htables,
      Action.recordReport_eq_asking hcoherent]
  · rw [record, recordAsking, transact_of_saved hsaved, transact_of_saved hsaved]

end Session

end FuzzLedger
