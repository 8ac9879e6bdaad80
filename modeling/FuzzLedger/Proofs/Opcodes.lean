import FuzzLedger.Proofs.Content
import FuzzLedger.Proofs.Lifetime

/-!
# Opcodes of a ledger that is filled by reports

Two conditions on opcodes that no rule of the tables states.  Each holds as long as the requests
that can break it are not made: the rows then come from reports, and reports look up what there is.

* `Store.Aligned` — a result refers to an opcode of the architecture of the host on which its batch
  was tested.  It rests on rows that never change: what a result refers to now is what it referred
  to when it was recorded (`Matched.later`).
* `Store.Distinct` — no two opcodes of an architecture share a name.  Requests for an opcode add it
  only if it is not there (`finalState_ensureOpcode`); a report adds the names it misses once each.

`results_match_hosts` and `opcodes_distinct` give both for every moment of every such run.
-/

set_option autoImplicit false

namespace FuzzLedger

/-- Whether the event adds a single result of a batch. -/
def Event.addsResult : Event → Bool
  | .request (.addTestSuccess ..) => true
  | .request (.addTestFailure _) => true
  | _ => false

/-- Whether the event creates an opcode without looking for it. -/
def Event.createsOpcode : Event → Bool
  | .request (.createOpcode ..) => true
  | _ => false

theorem Request.kind?_of_addsResult {r : Request} (h : (Event.request r).addsResult = false) :
    r.kind? ≠ some .testSuccess ∧ r.kind? ≠ some .testFailure := by
  cases r <;> simp_all [Event.addsResult, Request.kind?]

/-- Of the two requests for an opcode, one looks for it first. -/
theorem Request.eq_ensureOpcode {r : Request} (h : (Event.request r).createsOpcode = false)
    (hkind : r.kind? = some .opcode) : ∃ name archId, r = .ensureOpcode name archId := by
  cases r <;> cases hkind
  · cases h
  · exact ⟨_, _, rfl⟩

namespace Store

variable {s t : Store} {batchId opcodeId : Int}

/-! ## Results and their hosts -/

/-- The opcode belongs to the architecture of the host on which the batch was tested. -/
def Matched (s : Store) (batchId opcodeId : Int) : Prop :=
  ∃ (b : StoredBatch) (host : Host TextCell) (opcode : Opcode TextCell),
    s.find? .batch batchId = some b ∧ s.find? .host b.testingHostId = some host ∧
    s.find? .opcode opcodeId = some opcode ∧ opcode.archId = host.archId

/-- Every result refers to an opcode of the architecture of its batch. -/
structure Aligned (s : Store) : Prop where
  successes : ∀ x ∈ s.successes.rows, s.Matched x.batchId x.opcodeId
  failures : ∀ f ∈ s.failures.rows, s.Matched f.batchId f.opcodeId

/-- **A batch and an opcode that match do so for as long as they exist.** -/
theorem Matched.later (hm : s.Matched batchId opcodeId) (h : Later s t) (hs : s.Coherent)
    (ht : t.Coherent) (hbatch : t.has (.batch, batchId) = true)
    (hopcode : t.has (.opcode, opcodeId) = true) : t.Matched batchId opcodeId := by
  obtain ⟨b, host, opcode, hb, hhost, ho, harch⟩ := hm
  have hb' := h.find?_eq hs ht hb hbatch
  have hmem : b ∈ t.rows .batch := (ht.find?_eq_some_iff.1 hb').1
  have hhas : t.has (.host, b.testingHostId) = true :=
    ht.parents .batch b hmem _ List.mem_cons_self
  exact ⟨b, host, opcode, hb', h.find?_eq hs ht hhost hhas, h.find?_eq hs ht ho hopcode, harch⟩

/-- Results stay aligned if those that are not old ones match. -/
theorem Aligned.later (hm : s.Aligned) (h : Later s t) (hs : s.Coherent) (ht : t.Coherent)
    (hsuccesses : ∀ x ∈ t.successes.rows, x ∈ s.successes.rows ∨ t.Matched x.batchId x.opcodeId)
    (hfailures : ∀ f ∈ t.failures.rows, f ∈ s.failures.rows ∨ t.Matched f.batchId f.opcodeId) :
    t.Aligned := by
  refine ⟨fun x hx => ?_, fun f hf => ?_⟩
  · rcases hsuccesses x hx with hold | hnew
    · have hparents := ht.parents .testSuccess x hx
      exact (hm.successes x hold).later h hs ht (hparents _ (by simp [Row.references_eq]))
        (hparents _ (by simp [Row.references_eq]))
    · exact hnew
  · rcases hfailures f hf with hold | hnew
    · have hparents := ht.parents .testFailure f hf
      exact (hm.failures f hold).later h hs ht (hparents _ (by simp [Row.references_eq]))
        (hparents _ (by simp [Row.references_eq]))
    · exact hnew

theorem Aligned.empty : Aligned .empty := by
  constructor
  all_goals intro r hr; cases hr

/-- Rows of other kinds do not disturb the results. -/
theorem Aligned.growth {e : Entity} (hm : s.Aligned) (hs : s.Coherent) (hgrowth : GrowthIn e s t)
    (hsuccess : e ≠ .testSuccess) (hfailure : e ≠ .testFailure) : t.Aligned := by
  have hlater := (Later.refl s).change (.grow hgrowth.growth)
  have hsuccesses : t.successes = s.successes := hgrowth.frame .testSuccess hsuccess.symm
  have hfailures : t.failures = s.failures := hgrowth.frame .testFailure hfailure.symm
  refine hm.later hlater hs (hs.growth hgrowth.growth) (fun x hx => ?_) fun f hf => ?_
  · exact .inl (by rwa [hsuccesses] at hx)
  · exact .inl (by rwa [hfailures] at hf)

theorem Aligned.without (hm : s.Aligned) (hs : s.Coherent) {target : RowRef}
    (hhas : s.has target = true) : (s.without target).Aligned := by
  have hlater := (Later.refl s).change (.remove hhas)
  refine hm.later hlater hs (hs.without target) (fun x hx => ?_) fun f hf => ?_
  · exact .inl (mem_rows_without (e := .testSuccess).1 hx).1
  · exact .inl (mem_rows_without (e := .testFailure).1 hf).1

section Ingested

variable {now : Stamp} {r : Report} {m : Summary} {user : User} {arch : Arch} {host : Host}
  (h : s.Ingested now r m user arch host t)

include h

/-- The batch of a report was tested on a host of its architecture. -/
theorem Ingested.matched {name : String} (hopcode : t.HasOpcode arch.id opcodeId name) :
    t.Matched m.batchId opcodeId := by
  have hfind {e : Entity} {q : Row e} (hq : q ∈ t.rows e) : t.find? e (Row.id e q) = some q :=
    h.sound.coherent.find?_eq_some_iff.2 ⟨hq, rfl⟩
  have hbatch : (⟨m.batchId, r.fuzzingHost, host.id, user.id, now.text⟩ : StoredBatch) ∈
      t.batches.rows := by
    rw [h.batches]
    exact List.mem_append_right _ (List.mem_singleton_self _)
  exact ⟨_, host.stored, _, hfind (e := .batch) hbatch, hfind (e := .host) h.hosts.mem,
    hfind (e := .opcode) hopcode, h.host_arch.symm⟩

/-- **The results of a report are on opcodes of its architecture.** -/
theorem Ingested.aligned (hlater : Later s t) (hs : s.Coherent) (hm : s.Aligned) : t.Aligned := by
  obtain ⟨successes, hsuccesses, hstored⟩ := h.successes
  obtain ⟨failures, hfailures, hstored'⟩ := h.failures
  have hsuccess : ∀ x ∈ successes, t.Matched x.batchId x.opcodeId :=
    ((List.forall₂_and_left _ _).1 (hstored.imp fun _ _ hrow =>
      ⟨by rw [hrow.batch]; exact h.matched hrow.opcode, hrow⟩)).1
  have hfailure : ∀ f ∈ failures, t.Matched f.batchId f.opcodeId :=
    ((List.forall₂_and_left _ _).1 (hstored'.imp fun _ _ hrow =>
      ⟨by rw [hrow.batch]; exact h.matched hrow.opcode, hrow⟩)).1
  refine hm.later hlater hs h.sound.coherent (fun x hx => ?_) fun f hf => ?_
  · rw [hsuccesses, List.mem_append] at hx
    exact hx.imp_right (hsuccess x)
  · rw [hfailures, List.mem_append] at hf
    exact hf.imp_right (hfailure f)

end Ingested

/-! ## Opcodes and their names -/

/-- No two opcodes of an architecture share a name. -/
def Distinct (s : Store) : Prop :=
  ∀ a ∈ s.opcodes.rows, ∀ b ∈ s.opcodes.rows, a.archId = b.archId → a.name = b.name → a = b

theorem Distinct.of_subset (h : s.Distinct) (hsub : t.opcodes.rows ⊆ s.opcodes.rows) :
    t.Distinct :=
  fun a ha b hb => h a (hsub ha) b (hsub hb)

/-- One more opcode may come if its name is not known on its architecture. -/
theorem Distinct.add (h : s.Distinct) {id archId : Int} {name : String}
    (hnew : ¬ s.knowsOpcode archId name = true) :
    (s.add .opcode (⟨id, name, archId⟩ : Opcode TextCell)).Distinct := by
  have hother (o : Opcode TextCell) (ho : o ∈ s.opcodes.rows) (harch : o.archId = archId)
      (hname : o.name = name) : False :=
    hnew (knowsOpcode_iff.2 ⟨o, ho, harch, hname⟩)
  intro a ha b hb harch hname
  rcases mem_rows_add.1 ha with ha | ha <;> rcases mem_rows_add.1 hb with hb | hb
  · exact h a ha b hb harch hname
  · cases hb
    exact (hother a ha harch hname).elim
  · cases ha
    exact (hother b hb harch.symm hname.symm).elim
  · cases ha
    cases hb
    rfl

/-- **A report adds no opcode that is there already, and none twice.** -/
theorem Distinct.collected (h : s.Distinct) {archId : Int} {entries : List Entry}
    (hcollected : s.Collected archId entries t) : t.Distinct := by
  obtain ⟨rows, hrows, hnames, harchs⟩ := hcollected.opcodes
  have hnodup : (rows.map Opcode.name).Nodup := by
    rw [hnames]
    exact (s.nodup_missingOpcodes archId _).map fun _ _ => TextCell.text.inj
  -- an old opcode and a new one differ in their keys
  have hother (o : Opcode TextCell) (ho : o ∈ s.opcodes.rows) (q : Opcode TextCell) (hq : q ∈ rows)
      (harch : o.archId = q.archId) (hname : o.name = q.name) : False := by
    have hmem : q.name ∈ rows.map Opcode.name := List.mem_map_of_mem hq
    rw [hnames] at hmem
    obtain ⟨name, hmissing, hq'⟩ := List.mem_map.1 hmem
    refine (mem_missingOpcodes_iff.1 hmissing).2 (knowsOpcode_iff.2 ⟨o, ho, ?_, ?_⟩)
    · rw [harch, harchs q hq]
    · rw [hname, ← hq']
  intro a ha b hb harch hname
  rw [hrows, List.mem_append] at ha hb
  rcases ha with ha | ha <;> rcases hb with hb | hb
  · exact h a ha b hb harch hname
  · exact (hother a ha b hb harch hname).elim
  · exact (hother b hb a ha harch.symm hname.symm).elim
  · exact List.inj_on_of_nodup_map hnodup ha hb hname

/-- Distinct opcodes have distinct keys. -/
theorem Distinct.nodup_keys (h : s.Distinct) (hs : s.Coherent) :
    (s.opcodes.rows.map fun o => (o.archId, o.name)).Nodup := by
  have hrows : (s.rows .opcode).Nodup := List.Nodup.of_map _ (hs.ascending .opcode).nodup_ids
  refine List.Nodup.map_on (fun a ha b hb hkey => ?_) hrows
  obtain ⟨harch, hname⟩ := Prod.mk.inj hkey
  exact h a ha b hb harch hname

end Store

namespace Action

theorem finalState_createOpcode (name : String) (archId : Int) (s : Store) :
    finalState (createOpcode name archId s) = s ∨
    ∃ id, finalState (createOpcode name archId s) =
      s.add .opcode (⟨id, name, archId⟩ : Opcode TextCell) := by
  by_cases hle : name.length ≤ Limit.opcodeName
  · have hinsert : createOpcode name archId s =
        (do
          let row ← insertNew .opcode fun id => (⟨id, name, archId⟩ : Opcode TextCell)
          return ⟨Opcode.id row, name, archId⟩ : Action Opcode) s := by
      rw [createOpcode, checkLength, Limit.check_eq_ok_iff.2 hle]
      rfl
    rw [hinsert]
    simp only [Bind.bind, EStateM.bind, insertNew_eq]
    cases s.nextId? .opcode with
    | none => exact .inl rfl
    | some id =>
      simp only
      cases s.violation? .opcode (⟨id, name, archId⟩ : Opcode TextCell) with
      | some v => exact .inl rfl
      | none => exact .inr ⟨id, rfl⟩
  · rw [createOpcode, checkLength, Limit.check_eq_error (by omega)]
    exact .inl rfl

/-- **Asking for an opcode** adds at most this opcode, and only if it is not known. -/
theorem finalState_ensureOpcode (name : String) (archId : Int) (s : Store) :
    finalState (ensureOpcode name archId s) = s ∨
    ¬ s.knowsOpcode archId name = true ∧
      ∃ id, finalState (ensureOpcode name archId s) =
        s.add .opcode (⟨id, name, archId⟩ : Opcode TextCell) := by
  have hget : (get : Action Store) s = .ok s s := rfl
  simp only [ensureOpcode, Bind.bind, EStateM.bind, hget]
  cases hfind : s.opcodes.rows.find? fun o => o.archId == archId && o.name == .text name with
  | some opcode => exact .inl rfl
  | none =>
    have hnone : ∀ o ∈ s.opcodes.rows, ¬ (o.archId = archId ∧ o.name = .text name) := by
      simpa using List.find?_eq_none.1 hfind
    refine (finalState_createOpcode name archId s).imp_right fun hadd => ⟨fun hknows => ?_, hadd⟩
    obtain ⟨o, ho, hkey⟩ := Store.knowsOpcode_iff.1 hknows
    exact hnone o ho hkey

end Action

/-! ## Runs -/

namespace Session

variable {Q : Store → Prop} {s : Session} {run : List Event}

/-- A request keeps a property of sound stores if the growth of its table, a deletion or a recording
does, whichever it makes. -/
theorem Holds.after_sound {r : Request}
    (hgrow : ∀ e, r.kind? = some e → ∀ s t, Store.GrowthIn e s t → s.Sound → Q s → Q t)
    (hremove : ∀ (s : Store) target, s.has target = true → s.Sound → Q s → Q (s.without target))
    (hrecord : ∀ now report m user arch host s t, Store.Later s t →
      s.Ingested now report m user arch host t → s.Sound → Q s → Q t)
    (h : s.Holds fun store => store.Sound ∧ Q store) :
    (s.after r).Holds fun store => store.Sound ∧ Q store := by
  cases hkind : r.kind? with
  | some e =>
    refine h.after_of_kind? hkind fun s t hgrowth hs => ?_
    exact ⟨hs.1.growth hgrowth.growth, hgrow e hkind s t hgrowth hs.1 hs.2⟩
  | none =>
    cases r with
    | record now report =>
      refine h.after_record fun m s t hok hs => ?_
      obtain ⟨-, -, user, arch, host, hingested⟩ :=
        (Action.meets_recordReport hs.1 now report).of_ok hok
      have hlater := keeps_of_via (P := Store.Later s)
        (fun _ _ hgrowth h => h.change (.grow hgrowth)) (Action.grows_recordReport now report) s
        (.refl s)
      rw [hok] at hlater
      exact ⟨hingested.sound, hrecord _ _ _ _ _ _ _ _ hlater hingested hs.1 hs.2⟩
    | delete e id =>
      refine h.after_delete (fun s target hhas hs => ?_) e id
      exact ⟨hs.1.change (.remove hhas), hremove s target hhas hs.1 hs.2⟩
    | _ => cases hkind

theorem aligned_steps (hdirect : ∀ event ∈ run, event.isDirect = false)
    (hresult : ∀ event ∈ run, event.addsResult = false) :
    (fresh.steps run).Holds fun store => store.Sound ∧ store.Aligned := by
  refine holds_steps_of_requests ⟨.empty, .empty⟩ hdirect fun r hr s h => ?_
  obtain ⟨hsuccess, hfailure⟩ := Request.kind?_of_addsResult (hresult _ hr)
  refine h.after_sound (fun e hkind s t hgrowth hs hm => ?_)
    (fun s target hhas hs hm => hm.without hs.coherent hhas)
    fun now report m user arch host s t hlater hingested hs hm =>
      hingested.aligned hlater hs.coherent hm
  refine hm.growth hs.coherent hgrowth ?_ ?_
  · rintro rfl; exact hsuccess hkind
  · rintro rfl; exact hfailure hkind

theorem distinct_ensureOpcode (h : s.Holds fun store => store.Sound ∧ store.Distinct)
    (name : String) (archId : Int) :
    (s.after (.ensureOpcode name archId)).Holds fun store => store.Sound ∧ store.Distinct := by
  rw [after_eq]
  refine Holds.map (h.write (fun store hs => ?_) _) _
  have hsound := keeps_of_via (P := Store.Sound) (fun _ _ hgrowth hs => hs.growth hgrowth.growth)
    (Action.grows_ensureOpcode name archId) store hs.1
  refine ⟨hsound, ?_⟩
  rcases Action.finalState_ensureOpcode name archId store with hsame | ⟨hnew, id, hadd⟩
  · rw [hsame]
    exact hs.2
  · rw [hadd]
    exact hs.2.add hnew

theorem distinct_steps (hdirect : ∀ event ∈ run, event.isDirect = false)
    (hcreate : ∀ event ∈ run, event.createsOpcode = false) :
    (fresh.steps run).Holds fun store => store.Sound ∧ store.Distinct := by
  refine holds_steps_of_requests ⟨.empty, fun _ ha => by cases ha⟩ hdirect fun r hr s h => ?_
  by_cases hkind : r.kind? = some .opcode
  · obtain ⟨name, archId, rfl⟩ := Request.eq_ensureOpcode (hcreate _ hr) hkind
    exact distinct_ensureOpcode h name archId
  · refine h.after_sound (fun e he s t hgrowth _ hd => ?_) (fun s target _ _ hd => ?_)
      fun now report m user arch host s t _ hingested _ hd => hd.collected hingested.collected
    · have hopcodes : t.opcodes = s.opcodes :=
        hgrowth.frame .opcode (by rintro rfl; exact hkind he)
      exact hd.of_subset (by rw [hopcodes]; exact List.Subset.refl _)
    · exact hd.of_subset fun o ho => (Store.mem_rows_without (e := .opcode).1 ho).1

/-- A report is recorded, its architecture is deleted and created again, and the report is recorded
once more. -/
def rebuiltRun : List Event :=
  [.request (.record .epoch interleaved), .request (.delete .arch 1),
   .request (.createArch "arch"), .request (.ensureOpcode "add" 2),
   .request (.record .epoch interleaved)]

/-- **The results of a batch are on opcodes of the architecture of its testing host**, at every
moment of every run in which results come from reports only. -/
theorem results_match_hosts (hdirect : ∀ event ∈ run, event.isDirect = false)
    (hresult : ∀ event ∈ run, event.addsResult = false) {before : List Event}
    (h : before <+: run) :
    ∃ store, (fresh.steps before).image.tables = some store ∧
      (∀ x ∈ store.successes.rows, store.Matched x.batchId x.opcodeId) ∧
      ∀ f ∈ store.failures.rows, store.Matched f.batchId f.opcodeId := by
  obtain ⟨-, store, htables, -, haligned⟩ :=
    (aligned_steps (fun event hevent => hdirect event (h.subset hevent))
      fun event hevent => hresult event (h.subset hevent)).image
  exact ⟨store, htables, haligned.successes, haligned.failures⟩

theorem results_of_rebuiltRun :
    ∃ store, (fresh.steps rebuiltRun).image.tables = some store ∧
      (∀ x ∈ store.successes.rows, store.Matched x.batchId x.opcodeId) ∧
      (∀ f ∈ store.failures.rows, store.Matched f.batchId f.opcodeId) ∧
      store.count .testSuccess = 2 ∧ store.count .testFailure = 1 := by
  obtain ⟨store, htables, hsuccesses, hfailures⟩ :=
    results_match_hosts (by decide) (by decide) (List.prefix_rfl (l := rebuiltRun))
  refine ⟨store, htables, hsuccesses, hfailures, ?_⟩
  have heval : (fresh.steps rebuiltRun).image.tables.any (fun store =>
      store.count .testSuccess = 2 ∧ store.count .testFailure = 1) = true := by decide +kernel
  rw [htables] at heval
  simpa using heval

/-- **No two opcodes have the same architecture and name**, at any moment of any run in which no
opcode is created without looking for it. -/
theorem opcodes_distinct (hdirect : ∀ event ∈ run, event.isDirect = false)
    (hcreate : ∀ event ∈ run, event.createsOpcode = false) {before : List Event}
    (h : before <+: run) :
    ∃ store, (fresh.steps before).image.tables = some store ∧
      (store.opcodes.rows.map fun o => (o.archId, o.name)).Nodup := by
  obtain ⟨-, store, htables, hsound, hdistinct⟩ :=
    (distinct_steps (fun event hevent => hdirect event (h.subset hevent))
      fun event hevent => hcreate event (h.subset hevent)).image
  exact ⟨store, htables, hdistinct.nodup_keys hsound.coherent⟩

theorem opcodes_of_rebuiltRun :
    ∃ store, (fresh.steps rebuiltRun).image.tables = some store ∧
      (store.opcodes.rows.map fun o => (o.archId, o.name)).Nodup ∧
      store.opcodes.rows.map Opcode.name = [.text "add", .text "sub"] := by
  obtain ⟨store, htables, hnodup⟩ :=
    opcodes_distinct (by decide) (by decide) (List.prefix_rfl (l := rebuiltRun))
  refine ⟨store, htables, hnodup, ?_⟩
  have heval : (fresh.steps rebuiltRun).image.tables.any (fun store =>
      store.opcodes.rows.map Opcode.name = [.text "add", .text "sub"]) = true := by decide +kernel
  rw [htables] at heval
  simpa using heval

end Session

end FuzzLedger
