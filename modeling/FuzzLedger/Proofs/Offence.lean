import FuzzLedger.Proofs.Ingestion

/-!
# Which reports are refused, and why

A report is acceptable to a store if all its texts fit and its testing host, if there is one of that
name, is on its architecture (`Report.Acceptable`).  `Store.offences` lists what is wrong with it
otherwise; the two agree (`offences_eq_nil_iff`).

`record_verdict` says that recording succeeds exactly with acceptable reports and fails with the
first offence of the others, as long as the identifiers last.
-/

set_option autoImplicit false

namespace FuzzLedger

/-! ## Acceptable reports -/

/-- The texts of an entry fit. -/
structure Entry.Fits (entry : Entry) : Prop where
  opcode : entry.opcode.length ≤ Limit.opcodeName
  pretty : ∀ f, entry.failure? = some f → f.pretty.length ≤ Limit.failurePretty
  state : ∀ d ∈ entry.state, d.location.length ≤ Limit.stateLocation ∧
    d.expected.length ≤ Limit.stateValue ∧ d.actual.length ≤ Limit.stateValue

/-- The texts of a report fit. -/
structure Report.Fits (r : Report) : Prop where
  user : r.user.length ≤ Limit.username
  arch : r.arch.length ≤ Limit.archName
  testingHost : r.testingHost.length ≤ Limit.hostname
  fuzzingHost : r.fuzzingHost.length ≤ Limit.fuzzerHost
  entries : ∀ entry ∈ r.entries, entry.Fits

/-- The texts of a report fit, and its testing host is not known on another architecture. -/
structure Report.Acceptable (r : Report) (s : Store) : Prop extends r.Fits where
  hostArch : ∀ h ∈ s.hosts.rows, h.hostname = r.testingHost →
    ∃ a ∈ s.arches.rows, a.id = h.archId ∧ a.name = r.arch

/-! ## No offence -/

theorem StateDiff.offences_eq_nil_iff {d : StateDiff} :
    d.offences = [] ↔ d.location.length ≤ Limit.stateLocation ∧
      d.expected.length ≤ Limit.stateValue ∧ d.actual.length ≤ Limit.stateValue := by
  simp only [StateDiff.offences, List.append_eq_nil_iff, lengthOffences_eq_nil_iff]

theorem Entry.offences_eq_nil_iff {index : Nat} {entry : Entry} :
    entry.offences index = [] ↔ entry.Fits := by
  cases entry with
  | success opcode count =>
    simp only [Entry.offences, outcomeOffences, Entry.opcode, List.append_nil, List.map_eq_nil_iff,
      lengthOffences_eq_nil_iff]
    exact ⟨fun h => ⟨h, by simp [failure?], by simp [Entry.state]⟩, Fits.opcode⟩
  | failure opcode pretty arguments state =>
    simp only [Entry.offences, outcomeOffences, Entry.opcode, List.append_eq_nil_iff,
      List.map_eq_nil_iff, lengthOffences_eq_nil_iff, List.flatMap_eq_nil_iff,
      StateDiff.offences_eq_nil_iff]
    constructor
    · rintro ⟨hopcode, hpretty, hstate⟩
      exact ⟨hopcode, fun f hf => by cases hf; exact hpretty, hstate⟩
    · rintro ⟨hopcode, hpretty, hstate⟩
      exact ⟨hopcode, hpretty _ rfl, hstate⟩

theorem entriesOffences_eq_nil_iff : ∀ {entries : List Entry} {index : Nat},
    entriesOffences index entries = [] ↔ ∀ entry ∈ entries, entry.Fits
  | [], index => by simp [entriesOffences]
  | entry :: entries, index => by
    rw [entriesOffences_cons, List.append_eq_nil_iff, Entry.offences_eq_nil_iff,
      entriesOffences_eq_nil_iff, List.forall_mem_cons]

namespace Store

variable {s : Store}

/-- The identifier that is looked up for an architecture is that of an existing one only if this one
has the name: one that is still to be given out is larger than all that exist. -/
theorem Coherent.eq_archIdFor_iff (h : s.Coherent) {id : Int} (hhas : s.has (.arch, id) = true)
    {name : String} :
    id = s.archIdFor name ↔ ∃ a ∈ s.arches.rows, a.id = id ∧ a.name = name := by
  unfold archIdFor
  cases hfind : s.arches.findNamed? name with
  | some arch =>
    obtain ⟨hmem, hname⟩ := Table.mem_of_findNamed? hfind
    constructor
    · rintro rfl
      exact ⟨arch, hmem, rfl, Option.some.inj hname⟩
    · rintro ⟨a, ha, rfl, haname⟩
      rw [h.names .arch a ha arch hmem name (congrArg some haname) hname]
  | none =>
    have hnone := findNamed?_eq_none_iff (e := .arch).1 hfind
    constructor
    · rintro rfl
      obtain ⟨a, ha, hid⟩ := has_iff.1 hhas
      have hle := h.id_le_last .arch a ha
      have hnew : Row.id .arch a = (s.table .arch).last + 1 := hid
      omega
    · rintro ⟨a, ha, -, haname⟩
      exact absurd (congrArg some haname) (hnone a ha)

theorem Sound.hostOffences_eq_nil_iff (h : s.Sound) {hostname archName : String} :
    s.hostOffences hostname (s.archIdFor archName) = [] ↔
      hostname.length ≤ Limit.hostname ∧
        ∀ host ∈ s.hosts.rows, host.hostname = hostname →
          ∃ a ∈ s.arches.rows, a.id = host.archId ∧ a.name = archName := by
  unfold hostOffences
  cases hfind : s.hosts.findNamed? hostname with
  | some host =>
    obtain ⟨hmem, hname⟩ := Table.mem_of_findNamed? hfind
    -- the name of a known host fits, and no other host has it
    have hfits : hostname.length ≤ Limit.hostname := by
      have hcell := (h.tidy.proper .host host hmem).fits _ List.mem_cons_self
      rw [Option.some.inj hname] at hcell
      exact TextCell.fits_text.1 hcell
    have honly : ∀ q ∈ s.hosts.rows, q.hostname = hostname → q = host := fun q hq hqname =>
      h.coherent.names .host q hq host hmem hostname (congrArg some hqname) hname
    have hhas : s.has (.arch, host.archId) = true :=
      h.coherent.parents .host host hmem _ (List.mem_singleton_self _)
    have hiff : (if host.archId = s.archIdFor archName then []
        else [(⟨.hostArchMismatch hostname host.archId (s.archIdFor archName), []⟩ :
          Failure)]) = [] ↔ host.archId = s.archIdFor archName := by
      split <;> simp_all
    refine hiff.trans ((h.coherent.eq_archIdFor_iff hhas).trans ⟨fun hon => ⟨hfits, ?_⟩, ?_⟩)
    · intro q hq hqname
      rw [honly q hq hqname]
      exact hon
    · exact fun hon => hon.2 host hmem (Option.some.inj hname)
  | none =>
    have hnone := findNamed?_eq_none_iff (e := .host).1 hfind
    rw [lengthOffences_eq_nil_iff]
    refine ⟨fun hfits => ⟨hfits, fun q hq hqname => ?_⟩, fun hon => hon.1⟩
    exact absurd (congrArg some hqname) (hnone q hq)

/-- **A report has no offence exactly if it is acceptable.** -/
theorem Sound.offences_eq_nil_iff (h : s.Sound) {r : Report} :
    s.offences r = [] ↔ r.Acceptable s := by
  simp only [offences, List.append_eq_nil_iff, List.map_eq_nil_iff, lengthOffences_eq_nil_iff,
    h.hostOffences_eq_nil_iff, entriesOffences_eq_nil_iff]
  constructor
  · rintro ⟨huser, harch, ⟨htesting, hhost⟩, hfuzzing, hentries⟩
    exact ⟨⟨huser, harch, htesting, hfuzzing, hentries⟩, hhost⟩
  · rintro ⟨⟨huser, harch, htesting, hfuzzing, hentries⟩, hhost⟩
    exact ⟨huser, harch, ⟨htesting, hhost⟩, hfuzzing, hentries⟩

end Store

/-! ## The verdict -/

namespace Action

variable {s : Store}

/-- With enough identifiers, an action that meets its contract succeeds exactly without offences. -/
theorem Meets.ok_iff {α : Type} {offences : List Failure} {need : Entity → Nat}
    {Q : α → Store → Prop} {a : Action α} (h : Meets s offences need Q a)
    (hroom : s.HasRoom need) : (∃ x t, a s = .ok x t) ↔ offences = [] := by
  constructor
  · rintro ⟨x, t, hok⟩
    exact (h.of_ok hok).1
  · intro hnone
    cases ha : a s with
    | ok x t => exact ⟨x, t, rfl⟩
    | error f t =>
      have hhead := h.of_error ha hroom
      rw [hnone] at hhead
      cases hhead

theorem Meets.error_iff {α : Type} {offences : List Failure} {need : Entity → Nat}
    {Q : α → Store → Prop} {a : Action α} (h : Meets s offences need Q a)
    (hroom : s.HasRoom need) {f : Failure} :
    (∃ t, a s = .error f t) ↔ offences.head? = some f := by
  constructor
  · rintro ⟨t, herror⟩
    exact h.of_error herror hroom
  · intro hhead
    cases ha : a s with
    | ok x t =>
      rw [(h.of_ok ha).1] at hhead
      cases hhead
    | error g t =>
      have hg := h.of_error ha hroom
      rw [hhead] at hg
      cases hg
      exact ⟨t, rfl⟩

end Action

namespace Session

/-- After a run without direct insertions the tables are sound. -/
theorem sound_steps {run : List Event} (hrun : ∀ event ∈ run, event.isDirect = false)
    {store : Store} (htables : (fresh.steps run).image.tables = some store) : store.Sound := by
  obtain ⟨-, store₁, htables₁, hcoherent⟩ := (coherent_steps run).image
  obtain ⟨-, store₂, htables₂, htidy⟩ := (tidy_steps hrun).image
  rw [htables] at htables₁ htables₂
  cases htables₁
  cases htables₂
  exact ⟨hcoherent, htidy⟩

variable {s s' : Session} {store : Store} {now : Stamp} {r : Report}

/-- Recording succeeds where its action does, and puts its tables in place. -/
theorem record_eq_ok_iff (hsaved : s.saved = none) (htables : s.image.tables = some store)
    {m : Summary} :
    record now r s = .ok m s' ↔ ∃ t, Action.recordReport now r store = .ok m t ∧
      s' = { s with image := { s.image with tables := some t } } := by
  rw [record_eq now r hsaved htables]
  cases Action.recordReport now r store with
  | ok m' t =>
    constructor
    · intro h
      cases h
      exact ⟨t, rfl, rfl⟩
    · rintro ⟨t', h, rfl⟩
      cases h
      rfl
  | error f t => simp

/-- Recording fails where its action does, and leaves the session as it was. -/
theorem record_eq_error_iff (hsaved : s.saved = none) (htables : s.image.tables = some store)
    {f : Failure} :
    record now r s = .error f s' ↔
      (∃ t, Action.recordReport now r store = .error f t) ∧ s' = s := by
  rw [record_eq now r hsaved htables]
  cases Action.recordReport now r store with
  | ok m t => simp
  | error g t => simp [eq_comm]

/-- **Recording fails exactly with reports that are not acceptable, and names the first offence.**
This holds after every run of the ledger's operations that leaves no transaction open, as long as
the sequences have as many identifiers left as the report takes. -/
theorem record_verdict {run : List Event} (hrun : ∀ event ∈ run, event.isDirect = false)
    (hsaved : (fresh.steps run).saved = none) {store : Store}
    (htables : (fresh.steps run).image.tables = some store) (now : Stamp) (r : Report)
    (hroom : store.HasRoom (store.demand r)) :
    ((∃ m s', record now r (fresh.steps run) = .ok m s') ↔ r.Acceptable store) ∧
    ∀ f s', record now r (fresh.steps run) = .error f s' ↔
      (store.offences r).head? = some f ∧ s' = fresh.steps run := by
  have hsound := sound_steps hrun htables
  have hmeets := Action.meets_recordReport hsound now r
  refine ⟨?_, fun f s' => ?_⟩
  · rw [← hsound.offences_eq_nil_iff, ← hmeets.ok_iff hroom]
    simp only [record_eq_ok_iff hsaved htables]
    constructor
    · rintro ⟨m, s', t, hok, -⟩
      exact ⟨m, t, hok⟩
    · rintro ⟨m, t, hok⟩
      exact ⟨m, _, t, hok, rfl⟩
  · rw [← hmeets.error_iff hroom]
    exact record_eq_error_iff hsaved htables

/-- A report from a known host, but for another architecture and with an opcode that is too long. -/
def misplaced : Report :=
  { oneSuccess with
    arch := "other"
    entries := [.success (String.ofList (List.replicate 129 'x')) 3] }

/-- It is refused for the host, to which recording comes first; the earlier report is accepted once
more. -/
theorem record_verdict_misplaced :
    ∃ store, (fresh.steps recordedRun).image.tables = some store ∧
      store.HasRoom (store.demand oneSuccess) ∧ oneSuccess.Acceptable store ∧
      store.HasRoom (store.demand misplaced) ∧ (store.offences misplaced).length = 2 ∧
      record .epoch misplaced (fresh.steps recordedRun) =
        .error ⟨.hostArchMismatch "tester" 1 2, ["testing host"]⟩ (fresh.steps recordedRun) := by
  obtain ⟨store, htables⟩ := Option.isSome_iff_exists.1
    (show (fresh.steps recordedRun).image.tables.isSome by decide +kernel)
  -- what is decidable of the tables is evaluated on the run itself
  have heval (p : Store → Bool) (h : (fresh.steps recordedRun).image.tables.all p = true) :
      p store = true := by
    rw [htables] at h
    exact h
  have hroom (r : Report) (h : (fresh.steps recordedRun).image.tables.all (fun store =>
      Entity.all.all fun e => (store.table e).last + store.demand r e ≤ Store.maxId) = true) :
      store.HasRoom (store.demand r) := fun e => by
    simpa using List.all_eq_true.1 (heval _ h) e (Entity.mem_all e)
  have hroom₁ := hroom oneSuccess (by decide +kernel)
  have hroom₂ := hroom misplaced (by decide +kernel)
  have hrun : ∀ event ∈ recordedRun, event.isDirect = false := by decide
  have hok : ∃ m s', record .epoch oneSuccess (fresh.steps recordedRun) = .ok m s' := ⟨_, _, rfl⟩
  have htwo := heval (fun store => (store.offences misplaced).length = 2) (by decide +kernel)
  have hfirst := heval (fun store => (store.offences misplaced).head? =
    some ⟨.hostArchMismatch "tester" 1 2, ["testing host"]⟩) (by decide +kernel)
  refine ⟨store, htables, hroom₁, ?_, hroom₂, by simpa using htwo, ?_⟩
  · exact (record_verdict hrun rfl htables .epoch oneSuccess hroom₁).1.1 hok
  · exact ((record_verdict hrun rfl htables .epoch misplaced hroom₂).2 _ _).2
      ⟨by simpa using hfirst, rfl⟩

end Session

end FuzzLedger
