import FuzzLedger.Proofs.Addition

/-!
# What a store says by names

`Store.content` forgets identifiers and times: it keeps the names of users and architectures, the
architecture of each host by name, the names of the opcodes of each architecture with their
multiplicities, and the batches, in which every reference is replaced by the name it leads to.

`Content.record` says what a report adds to such a content.  `Ingested.content_eq` is the
refinement: the content after a recording is that of the store before with the report added,
whatever identifiers were given out.
-/

set_option autoImplicit false

namespace FuzzLedger

/-! ## Contents -/

/-- A failure with the name of its opcode and its differences in order. -/
structure FailureContent where
  opcode : Option TextCell
  pretty : TextCell
  arguments : TextCell
  state : List (TextCell × TextCell × TextCell)

/-- A batch with the names of its testing host and its user, and its results in order. -/
structure BatchContent where
  fuzzerHost : TextCell
  testingHost : Option TextCell
  user : Option TextCell
  successes : List (Option TextCell × NumberCell)
  failures : List FailureContent

/-- What a ledger says, up to identifiers and times. -/
@[ext]
structure Content where
  usernames : Finset TextCell
  archNames : Finset TextCell
  hostArch : TextCell → Option TextCell
  opcodes : TextCell → Multiset TextCell
  batches : Multiset BatchContent

namespace Store

/-- The name of the row that a kind and an identifier lead to. -/
def nameAt (s : Store) (e : Entity) (name : Row e → TextCell) (id : Int) : Option TextCell :=
  (s.find? e id).map name

def successContent (s : Store) (x : StoredSuccess) : Option TextCell × NumberCell :=
  (s.nameAt .opcode Opcode.name x.opcodeId, x.count)

def failureContent (s : Store) (f : TestFailure TextCell) : FailureContent where
  opcode := s.nameAt .opcode Opcode.name f.opcodeId
  pretty := f.pretty
  arguments := f.arguments
  state := (s.states.rows.filter (·.failureId = f.id)).map TestFailureState.cells

def batchContent (s : Store) (b : StoredBatch) : BatchContent where
  fuzzerHost := b.fuzzerHost
  testingHost := s.nameAt .host Host.hostname b.testingHostId
  user := s.nameAt .user User.username b.userId
  successes := (s.successes.rows.filter (·.batchId = b.id)).map s.successContent
  failures := (s.failures.rows.filter (·.batchId = b.id)).map s.failureContent

/-- The names of the opcodes of an architecture, which is given by its name. -/
def opcodeNames (s : Store) (archName : TextCell) : List TextCell :=
  (s.opcodes.rows.filter fun o => s.nameAt .arch Arch.name o.archId = some archName).map Opcode.name

/-- What a store says, up to identifiers and times. -/
def content (s : Store) : Content where
  usernames := (s.users.rows.map User.username).toFinset
  archNames := (s.arches.rows.map Arch.name).toFinset
  hostArch hostname :=
    (s.hosts.findNamed? hostname).bind fun host => s.nameAt .arch Arch.name host.archId
  opcodes archName := s.opcodeNames archName
  batches := s.batches.rows.map s.batchContent

end Store

/-- What a report says of its batch. -/
def Report.content (r : Report) : BatchContent where
  fuzzerHost := r.fuzzingHost
  testingHost := some (.text r.testingHost)
  user := some (.text r.user)
  successes := (r.entries.filterMap Entry.success?).map fun p =>
    (some (.text p.1), .int p.2.toInt)
  failures := (r.entries.filterMap Entry.failure?).map fun f =>
    ⟨some f.opcode, f.pretty, f.arguments, f.state.map StateDiff.cells⟩

/-- The content with a report added.  Of an opcode name there is at least one afterwards, and not
more than before if there was one. -/
def Content.record (c : Content) (r : Report) : Content where
  usernames := insert (.text r.user) c.usernames
  archNames := insert (.text r.arch) c.archNames
  hostArch := Function.update c.hostArch r.testingHost (some (.text r.arch))
  opcodes := Function.update c.opcodes r.arch
    (c.opcodes r.arch ∪ ((r.entries.map Entry.opcode).map TextCell.text).toFinset.val)
  batches := r.content ::ₘ c.batches

/-! ## Names that rows lead to -/

namespace Store

variable {s t : Store} {e : Entity}

theorem Coherent.nameAt_of_mem (h : s.Coherent) {row : Row e} (hrow : row ∈ s.rows e)
    (name : Row e → TextCell) : s.nameAt e name (Row.id e row) = some (name row) := by
  rw [nameAt, h.find?_eq_some_iff.2 ⟨hrow, rfl⟩, Option.map_some]

/-- A reference leads to the same name when tables have grown at their ends. -/
theorem Coherent.nameAt_of_prefix (hs : s.Coherent) (ht : t.Coherent)
    (hrows : s.rows e <+: t.rows e) {id : Int} (hhas : s.has (e, id) = true)
    (name : Row e → TextCell) : t.nameAt e name id = s.nameAt e name id := by
  obtain ⟨row, hrow, hid⟩ := has_iff.1 hhas
  have hid : Row.id e row = id := hid
  rw [← hid, hs.nameAt_of_mem hrow, ht.nameAt_of_mem (hrows.subset hrow)]

theorem Coherent.findNamed?_eq_some_iff (h : s.Coherent) {name : TextCell} {row : Row e} :
    (s.table e).findNamed? name = some row ↔
      row ∈ s.rows e ∧ Row.uniqueName? e row = some name := by
  constructor
  · exact Table.mem_of_findNamed?
  · rintro ⟨hrow, hname⟩
    cases hfind : (s.table e).findNamed? name with
    | some q =>
      obtain ⟨hq, hqname⟩ := Table.mem_of_findNamed? hfind
      rw [h.names e q hq row hrow name hqname hname]
    | none => exact absurd hname (findNamed?_eq_none_iff.1 hfind row hrow)

/-! ## Lists that grow at the end -/

/-- Of the rows at the end of a list, none is picked. -/
theorem filter_append_of_none {α : Type} {old new : List α} {p : α → Bool}
    (h : ∀ x ∈ new, p x = false) : (old ++ new).filter p = old.filter p := by
  have hnone : new.filter p = [] := List.filter_eq_nil_iff.2 fun x hx => by simp [h x hx]
  rw [List.filter_append, hnone, List.append_nil]

/-- Only the rows at the end of a list are picked. -/
theorem filter_append_of_only {α : Type} {old new : List α} {p : α → Bool}
    (hold : ∀ x ∈ old, p x = false) (hnew : ∀ x ∈ new, p x = true) :
    (old ++ new).filter p = new := by
  have hnone : old.filter p = [] := List.filter_eq_nil_iff.2 fun x hx => by simp [hold x hx]
  rw [List.filter_append, hnone, List.nil_append, List.filter_eq_self.2 hnew]

/-- Rows that store what is reported, one by one, say what is reported. -/
theorem map_eq_map_of_forall₂ {α β γ : Type} {R : α → β → Prop} {f : α → γ} {g : β → γ}
    {xs : List α} {ys : List β} (h : List.Forall₂ R xs ys) (hR : ∀ x y, R x y → f x = g y) :
    xs.map f = ys.map g := by
  induction h with
  | nil => rfl
  | cons hxy _ ih => rw [List.map_cons, List.map_cons, hR _ _ hxy, ih]

/-- Asking for a name makes it one of the names. -/
theorem names_of_ensured {name : Row e → TextCell} {wanted : TextCell} {before after : Table e}
    {row : Row e} (h : Table.Ensured (fun q => name q = wanted) before after row) :
    (after.rows.map name).toFinset = insert wanted (before.rows.map name).toFinset := by
  ext n
  simp only [Finset.mem_insert, List.mem_toFinset]
  cases h with
  | found hmem hname hrows =>
    rw [hrows]
    refine ⟨.inr, ?_⟩
    rintro (rfl | hold)
    · exact List.mem_map.2 ⟨row, hmem, hname⟩
    · exact hold
  | added _ hname hrows _ =>
    rw [hrows, List.map_append, List.map_singleton, hname, List.mem_append, List.mem_singleton,
      or_comm]

/-! ## Missing opcodes as a set -/

theorem nodup_eraseDups {α : Type} [DecidableEq α] : ∀ xs : List α, xs.eraseDups.Nodup
  | [] => by simp
  | x :: xs => by
    rw [List.eraseDups_cons, List.nodup_cons]
    refine ⟨?_, nodup_eraseDups _⟩
    rw [List.mem_eraseDups, List.mem_filter]
    simp
termination_by xs => xs.length
decreasing_by exact Nat.lt_succ_of_le (List.length_filter_le _ _)

theorem nodup_missingOpcodes (s : Store) (archId : Int) (names : List String) :
    (s.missingOpcodes archId names).Nodup :=
  nodup_eraseDups _

theorem mem_missingOpcodes_iff {archId : Int} {names : List String} {name : String} :
    name ∈ s.missingOpcodes archId names ↔
      name ∈ names ∧ ¬ s.knowsOpcode archId name = true := by
  rw [missingOpcodes, List.mem_eraseDups, List.mem_filter, Bool.not_eq_true', Bool.not_eq_true]

/-- Adding to names those that are missing among them makes their union. -/
theorem coe_append_missingOpcodes {old : List TextCell} {names : List String} {archId : Int}
    (h : ∀ name : String, .text name ∈ old ↔ s.knowsOpcode archId name = true) :
    ((old ++ (s.missingOpcodes archId names).map TextCell.text : List TextCell) :
        Multiset TextCell) =
      (old : Multiset TextCell) ∪ (names.map TextCell.text).toFinset.val := by
  have hmem (name : TextCell) : name ∈ (s.missingOpcodes archId names).map TextCell.text ↔
      name ∈ names.map TextCell.text ∧ name ∉ old := by
    simp only [List.mem_map, mem_missingOpcodes_iff, ← h]
    constructor
    · rintro ⟨text, ⟨htext, hmissing⟩, rfl⟩
      exact ⟨⟨text, htext, rfl⟩, hmissing⟩
    · rintro ⟨⟨text, htext, rfl⟩, hmissing⟩
      exact ⟨text, ⟨htext, hmissing⟩, rfl⟩
  ext name
  have hmissing : ((s.missingOpcodes archId names).map TextCell.text).count name =
      if name ∈ names.map TextCell.text ∧ name ∉ old then 1 else 0 := by
    rw [((s.nodup_missingOpcodes archId names).map fun _ _ => TextCell.text.inj).count]
    simp only [hmem]
  have hnames : (names.map TextCell.text).toFinset.val.count name =
      if name ∈ names.map TextCell.text then 1 else 0 := by
    rw [Multiset.count_eq_of_nodup (names.map TextCell.text).toFinset.nodup]
    simp only [Finset.mem_val, List.mem_toFinset]
  rw [Multiset.coe_count, List.count_append, hmissing, Multiset.count_union, Multiset.coe_count,
    hnames]
  by_cases hold : name ∈ old
  · have hpos := List.count_pos_iff.2 hold
    rw [if_neg fun hand => hand.2 hold]
    split <;> omega
  · rw [List.count_eq_zero_of_not_mem hold]
    simp [hold]

/-! ## After a recording -/

namespace Ingested

variable {now : Stamp} {r : Report} {m : Summary} {user : User} {arch : Arch} {host : Host}
  (h : Ingested now r m user arch host s t)

include h

theorem nameAt_arch : t.nameAt .arch Arch.name arch.id = some (.text r.arch) := by
  have hname := h.sound.coherent.nameAt_of_mem (e := .arch) h.arches.mem Arch.name
  rw [h.arches.has_key] at hname
  exact hname

theorem nameAt_host : t.nameAt .host Host.hostname host.id = some (.text r.testingHost) := by
  have hname := h.sound.coherent.nameAt_of_mem (e := .host) h.hosts.mem Host.hostname
  rw [h.hosts.has_key] at hname
  exact hname

theorem nameAt_user : t.nameAt .user User.username user.id = some (.text r.user) := by
  have hname := h.sound.coherent.nameAt_of_mem (e := .user) h.users.mem User.username
  rw [h.users.has_key] at hname
  exact hname

theorem nameAt_opcode {id : Int} {name : String} (hhas : t.HasOpcode arch.id id name) :
    t.nameAt .opcode Opcode.name id = some (.text name) :=
  h.sound.coherent.nameAt_of_mem (e := .opcode) hhas Opcode.name

variable (hs : s.Coherent)

include hs

theorem nameAt_eq {id : Int} (hhas : s.has (e, id) = true) (name : Row e → TextCell) :
    t.nameAt e name id = s.nameAt e name id :=
  hs.nameAt_of_prefix h.sound.coherent (h.rows_prefix e) hhas name

/-! ### Hosts and opcodes -/

theorem hostArch_eq :
    t.content.hostArch =
      Function.update s.content.hostArch r.testingHost (some (.text r.arch)) := by
  funext hostname
  by_cases hsame : hostname = r.testingHost
  · have hfind : t.hosts.findNamed? r.testingHost = some host.stored :=
      (h.sound.coherent.findNamed?_eq_some_iff (e := .host)).2
        ⟨h.hosts.mem, congrArg some h.hosts.has_key⟩
    rw [hsame, Function.update_self]
    simp only [content, hfind, Option.bind_some, Host.stored, h.host_arch]
    exact h.nameAt_arch
  · rw [Function.update_of_ne hsame]
    have hfind : t.hosts.findNamed? hostname = s.hosts.findNamed? hostname := by
      cases h.hosts with
      | found _ _ hrows => rw [Table.findNamed?, hrows, Table.findNamed?]
      | added _ hname hrows _ =>
        have hother : (Row.uniqueName? .host host.stored == some hostname) = false := by
          simp only [Row.uniqueName?, hname, beq_eq_false_iff_ne, ne_eq, Option.some.injEq]
          exact fun heq => hsame heq.symm
        rw [Table.findNamed?, hrows, List.find?_append, List.find?_cons_of_neg (by simp [hother]),
          List.find?_nil, Option.or_none, Table.findNamed?]
    simp only [content, hfind]
    cases hold : s.hosts.findNamed? hostname with
    | none => rfl
    | some q =>
      obtain ⟨hq, -⟩ := Table.mem_of_findNamed? hold
      have hhas : s.has (.arch, q.archId) = true :=
        hs.parents .host q hq _ (List.mem_singleton_self _)
      exact h.nameAt_eq hs hhas Arch.name

/-- An opcode on the architecture of the report is one on the architecture of that name. -/
theorem mem_opcodeNames_iff {name : String} :
    .text name ∈ s.opcodeNames r.arch ↔ s.knowsOpcode arch.id name = true := by
  rw [opcodeNames, List.mem_map, knowsOpcode_iff]
  refine exists_congr fun o => ?_
  rw [List.mem_filter, decide_eq_true_eq, and_assoc]
  refine and_congr_right fun ho => and_congr_left fun _ => ?_
  have hhas : s.has (.arch, o.archId) = true :=
    hs.parents .opcode o ho _ (List.mem_singleton_self _)
  rw [← h.nameAt_eq hs hhas]
  constructor
  · intro hname
    obtain ⟨a, ha, haname⟩ := Option.map_eq_some_iff.1 hname
    obtain ⟨hmem, hid⟩ := h.sound.coherent.find?_eq_some_iff.1 ha
    rw [← hid, h.sound.coherent.names .arch a hmem arch.stored h.arches.mem r.arch
      (congrArg some haname) (congrArg some h.arches.has_key)]
    rfl
  · rintro harch
    rw [harch]
    exact h.nameAt_arch

/-- The new opcodes are on the architecture of the report, the old ones stay where they are. -/
theorem opcodeNames_eq (archName : TextCell) :
    t.opcodeNames archName = s.opcodeNames archName ++
      if archName = r.arch then
        (s.missingOpcodes arch.id (r.entries.map Entry.opcode)).map TextCell.text
      else [] := by
  obtain ⟨rows, hrows, hnames, harch⟩ := h.collected.opcodes
  have hold : s.opcodes.rows.filter (fun o => t.nameAt .arch Arch.name o.archId = some archName) =
      s.opcodes.rows.filter (fun o => s.nameAt .arch Arch.name o.archId = some archName) := by
    refine List.filter_congr fun o ho => ?_
    have hhas : s.has (.arch, o.archId) = true :=
      hs.parents .opcode o ho _ (List.mem_singleton_self _)
    rw [h.nameAt_eq hs hhas]
  have hnew : ∀ o ∈ rows, t.nameAt .arch Arch.name o.archId = some (.text r.arch) := fun o ho => by
    rw [harch o ho]
    exact h.nameAt_arch
  rw [opcodeNames, hrows, List.filter_append, hold, List.map_append, opcodeNames]
  congr 1
  split
  · rename_i hsame
    rw [List.filter_eq_self.2 fun o ho => by simp [hnew o ho, hsame], hnames]
  · rename_i hother
    rw [List.filter_eq_nil_iff.2 fun o ho => by simp [hnew o ho, Ne.symm hother], List.map_nil]

theorem opcodes_eq :
    t.content.opcodes = Function.update s.content.opcodes r.arch
      (s.content.opcodes r.arch ∪
        ((r.entries.map Entry.opcode).map TextCell.text).toFinset.val) := by
  funext archName
  simp only [content, h.opcodeNames_eq hs]
  by_cases hsame : archName = r.arch
  · rw [hsame, if_pos rfl, Function.update_self]
    exact coe_append_missingOpcodes fun name => h.mem_opcodeNames_iff hs
  · rw [if_neg hsame, List.append_nil, Function.update_of_ne hsame]

/-! ### Batches -/

/-- The results of an old failure stay as they are: new states refer to new failures. -/
theorem failureContent_eq {f : TestFailure TextCell} (hf : f ∈ s.failures.rows) :
    t.failureContent f = s.failureContent f := by
  have hopcode := h.nameAt_eq hs (hs.parents .testFailure f hf (.opcode, f.opcodeId)
    (List.mem_cons_of_mem _ (List.mem_singleton_self _))) Opcode.name
  obtain ⟨rows, hrows, hbeyond⟩ := h.newStates
  have hid : f.id ≤ s.failures.last := hs.id_le_last .testFailure f hf
  have hstates : t.states.rows.filter (·.failureId = f.id) =
      s.states.rows.filter (·.failureId = f.id) := by
    rw [hrows]
    refine filter_append_of_none fun d hd => ?_
    have := hbeyond d hd
    rw [decide_eq_false_iff_not]
    omega
  rw [failureContent, hopcode, hstates, failureContent]

theorem successContent_eq {x : StoredSuccess} (hx : x ∈ s.successes.rows) :
    t.successContent x = s.successContent x := by
  have hopcode := h.nameAt_eq hs (hs.parents .testSuccess x hx (.opcode, x.opcodeId)
    (List.mem_cons_of_mem _ (List.mem_singleton_self _))) Opcode.name
  rw [successContent, hopcode, successContent]

/-- **Old batches say what they said**: new results refer to the new batch. -/
theorem batchContent_old {b : StoredBatch} (hb : b ∈ s.batches.rows) :
    t.batchContent b = s.batchContent b := by
  have hid : b.id ≤ s.batches.last := hs.id_le_last .batch b hb
  have hnew := h.batchId
  have hhost := h.nameAt_eq hs (hs.parents .batch b hb (.host, b.testingHostId)
    List.mem_cons_self) Host.hostname
  have huser := h.nameAt_eq hs (hs.parents .batch b hb (.user, b.userId)
    (List.mem_cons_of_mem _ (List.mem_singleton_self _))) User.username
  have hsuccesses : (t.successes.rows.filter (·.batchId = b.id)).map t.successContent =
      (s.successes.rows.filter (·.batchId = b.id)).map s.successContent := by
    obtain ⟨rows, hrows, hstored⟩ := h.successes
    have hbatch := batchId_of_storesSuccesses hstored
    rw [hrows, filter_append_of_none fun x hx => by
      have := hbatch x hx
      rw [decide_eq_false_iff_not]
      omega]
    exact List.map_congr_left fun x hx => h.successContent_eq hs (List.mem_filter.1 hx).1
  have hfailures : (t.failures.rows.filter (·.batchId = b.id)).map t.failureContent =
      (s.failures.rows.filter (·.batchId = b.id)).map s.failureContent := by
    obtain ⟨rows, hrows, hstored⟩ := h.failures
    have hbatch := batchId_of_storesFailures hstored
    rw [hrows, filter_append_of_none fun f hf => by
      have := hbatch f hf
      rw [decide_eq_false_iff_not]
      omega]
    exact List.map_congr_left fun f hf => h.failureContent_eq hs (List.mem_filter.1 hf).1
  rw [batchContent, hhost, huser, hsuccesses, hfailures, batchContent]

/-- **The new batch says what the report says**: old results refer to old batches. -/
theorem batchContent_new :
    t.batchContent ⟨m.batchId, r.fuzzingHost, host.id, user.id, now.text⟩ = r.content := by
  have hnew := h.batchId
  have hsuccesses : (t.successes.rows.filter (·.batchId = m.batchId)).map t.successContent =
      r.content.successes := by
    obtain ⟨rows, hrows, hstored⟩ := h.successes
    have hbatch := batchId_of_storesSuccesses hstored
    rw [hrows, filter_append_of_only (fun x hx => ?_) fun x hx => decide_eq_true (hbatch x hx)]
    · refine map_eq_map_of_forall₂ hstored fun x reported hx => ?_
      rw [successContent, h.nameAt_opcode hx.opcode, hx.count]
    · have hle : x.batchId ≤ s.batches.last :=
        hs.reference_le_last (e := .testSuccess) (f := .batch) hx List.mem_cons_self
      rw [decide_eq_false_iff_not]
      omega
  have hfailures : (t.failures.rows.filter (·.batchId = m.batchId)).map t.failureContent =
      r.content.failures := by
    obtain ⟨rows, hrows, hstored⟩ := h.failures
    have hbatch := batchId_of_storesFailures hstored
    rw [hrows, filter_append_of_only (fun f hf => ?_) fun f hf => decide_eq_true (hbatch f hf)]
    · refine map_eq_map_of_forall₂ hstored fun f reported hf => ?_
      rw [failureContent, h.nameAt_opcode hf.opcode, hf.pretty, hf.arguments, hf.state]
    · have hle : f.batchId ≤ s.batches.last :=
        hs.reference_le_last (e := .testFailure) (f := .batch) hf List.mem_cons_self
      rw [decide_eq_false_iff_not]
      omega
  rw [batchContent, h.nameAt_host, h.nameAt_user, hsuccesses, hfailures]
  rfl

/-- **The content after a recording is the content before with the report added.** -/
theorem content_eq : t.content = s.content.record r := by
  refine Content.ext ?_ ?_ (h.hostArch_eq hs) (h.opcodes_eq hs) ?_
  · exact names_of_ensured (e := .user) h.users
  · exact names_of_ensured (e := .arch) h.arches
  · have hold : s.batches.rows.map t.batchContent = s.batches.rows.map s.batchContent :=
      List.map_congr_left fun b hb => h.batchContent_old hs hb
    simp only [content, Content.record]
    rw [h.batches, List.map_append, List.map_singleton, hold, h.batchContent_new hs,
      ← Multiset.coe_add, Multiset.add_comm]
    rfl

end Ingested

end Store

end FuzzLedger
