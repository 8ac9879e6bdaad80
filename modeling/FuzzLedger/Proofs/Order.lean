import FuzzLedger.Proofs.Content

/-!
# The order of two recordings does not matter

Up to identifiers and times, that is: what two reports add to the content of a store is the same in
either order (`Content.record_comm`), as long as they do not put one host on two architectures.
Whether a report is accepted depends on the content too (`Coherent.acceptable_iff`), and the first
report changes it only by the host that it brings (`Content.allows_record_iff`).  So both succeed in
one order exactly if they do in the other, provided that there are identifiers for both: what both
bring takes one (`Store.demandBoth`), whichever comes first (`Ingested.demand_add_le`).
-/

set_option autoImplicit false

namespace FuzzLedger

/-! ## What a content allows -/

namespace Content

variable {c : Content} {first second : Report}

/-- The testing host of a report is not known on another architecture. -/
def Allows (c : Content) (r : Report) : Prop :=
  ∀ archName, c.hostArch r.testingHost = some archName → archName = r.arch

/-- The two reports do not put one host on two architectures. -/
def Compatible (first second : Report) : Prop :=
  first.testingHost = second.testingHost → first.arch = second.arch

theorem Compatible.symm (h : Compatible first second) : Compatible second first :=
  fun hsame => (h hsame.symm).symm

/-- **The first report matters to the second only by its host.** -/
theorem allows_record_iff (h : c.Allows first) :
    (c.record first).Allows second ↔ c.Allows second ∧ Compatible first second := by
  by_cases hsame : first.testingHost = second.testingHost
  · have hhost : (c.record first).hostArch second.testingHost = some (.text first.arch) := by
      rw [← hsame]
      exact Function.update_self ..
    constructor
    · intro hallows
      have harch := TextCell.text.inj (hallows first.arch hhost)
      refine ⟨fun archName hknown => ?_, fun _ => harch⟩
      rw [← hsame] at hknown
      rw [h archName hknown, harch]
    · rintro ⟨-, hcompatible⟩ archName hknown
      rw [hhost] at hknown
      rw [← Option.some.inj hknown, hcompatible hsame]
  · have hne : TextCell.text second.testingHost ≠ .text first.testingHost := fun heq =>
      hsame (TextCell.text.inj heq).symm
    have hhost : (c.record first).hostArch second.testingHost =
        c.hostArch second.testingHost := Function.update_of_ne hne ..
    rw [Allows, hhost]
    exact ⟨fun hallows => ⟨hallows, fun heq => absurd heq hsame⟩, fun hallows => hallows.1⟩

/-- **Adding two reports to a content gives the same in either order.** -/
theorem record_comm (c : Content) (h : Compatible first second) :
    (c.record first).record second = (c.record second).record first := by
  refine Content.ext ?_ ?_ ?_ ?_ ?_
  · exact Finset.insert_comm ..
  · exact Finset.insert_comm ..
  · by_cases hsame : first.testingHost = second.testingHost
    · simp only [record, hsame, h hsame]
    · exact Function.update_comm (fun heq => hsame (TextCell.text.inj heq)) ..
  · by_cases hsame : first.arch = second.arch
    · simp only [record, hsame, Function.update_self, Function.update_idem]
      exact congrArg _ (sup_right_comm ..)
    · have hne : TextCell.text first.arch ≠ .text second.arch := fun heq =>
        hsame (TextCell.text.inj heq)
      simp only [record, Function.update_of_ne hne, Function.update_of_ne hne.symm]
      exact Function.update_comm hne ..
  · exact Multiset.cons_swap ..

end Content

namespace Store

variable {s t : Store}

/-- **Whether a report is acceptable shows in the content.** -/
theorem Coherent.acceptable_iff (h : s.Coherent) {r : Report} :
    r.Acceptable s ↔ r.Fits ∧ s.content.Allows r := by
  constructor
  · intro hr
    refine ⟨hr.toFits, fun archName hname => ?_⟩
    obtain ⟨host, hfind, hname⟩ := Option.bind_eq_some_iff.1 hname
    obtain ⟨hmem, hhostname⟩ := Table.mem_of_findNamed? hfind
    obtain ⟨a, ha, hid, haname⟩ := hr.hostArch host hmem (Option.some.inj hhostname)
    have hlookup := h.nameAt_of_mem (e := .arch) ha Arch.name
    rw [← hid, hlookup, haname] at hname
    exact (Option.some.inj hname).symm
  · rintro ⟨hfits, hallows⟩
    refine ⟨hfits, fun host hmem hhostname => ?_⟩
    have hfind : s.hosts.findNamed? r.testingHost = some host :=
      (h.findNamed?_eq_some_iff (e := .host)).2 ⟨hmem, congrArg some hhostname⟩
    obtain ⟨a, ha, hid⟩ := has_iff.1 (h.parents .host host hmem _ (List.mem_singleton_self _))
    have hlookup := h.nameAt_of_mem (e := .arch) ha Arch.name
    have hname : s.content.hostArch r.testingHost = some (Arch.name a) := by
      simp only [content, hfind, Option.bind_some]
      exact (congrArg _ hid.symm).trans hlookup
    exact ⟨a, ha, hid, hallows a.name hname⟩

/-! ### Identifiers -/

/-- **The identifiers that recording two reports takes.**  A host and an opcode that both bring take
one; a user and an architecture take one each time. -/
def demandBoth (s : Store) (first second : Report) : Entity → Nat
  | .host =>
    if first.testingHost = second.testingHost then s.demand first .host
    else s.demand first .host + s.demand second .host
  | .opcode =>
    if first.arch = second.arch then
      (s.missingOpcodes (s.archIdFor first.arch)
        (first.entries.map Entry.opcode ++ second.entries.map Entry.opcode)).length
    else s.demand first .opcode + s.demand second .opcode
  | e => s.demand first e + s.demand second e

/-- Of fewer names, and where more opcodes are known, no more are missing. -/
theorem missingOpcodes_subset {archId archId' : Int} {names names' : List String}
    (hnames : names' ⊆ names)
    (hknows : ∀ name, s.knowsOpcode archId name = true → t.knowsOpcode archId' name = true) :
    t.missingOpcodes archId' names' ⊆ s.missingOpcodes archId names := by
  intro name hname
  obtain ⟨hmem, hunknown⟩ := mem_missingOpcodes_iff.1 hname
  exact mem_missingOpcodes_iff.2 ⟨hnames hmem, fun hknown => hunknown (hknows name hknown)⟩

theorem length_missingOpcodes_append_comm (s : Store) (archId : Int) (xs ys : List String) :
    (s.missingOpcodes archId (xs ++ ys)).length = (s.missingOpcodes archId (ys ++ xs)).length := by
  refine ((List.perm_ext_iff_of_nodup (s.nodup_missingOpcodes _ _)
    (s.nodup_missingOpcodes _ _)).2 fun name => ?_).length_eq
  rw [mem_missingOpcodes_iff, mem_missingOpcodes_iff, List.mem_append, List.mem_append, or_comm]

theorem demandBoth_comm (s : Store) (first second : Report) :
    s.demandBoth first second = s.demandBoth second first := by
  funext e
  cases e with
  | host =>
    by_cases hsame : first.testingHost = second.testingHost
    · simp only [demandBoth, hsame, if_true, demand]
    · simp only [demandBoth, if_neg hsame, if_neg (Ne.symm hsame), Nat.add_comm]
  | opcode =>
    by_cases hsame : first.arch = second.arch
    · simp only [demandBoth, hsame, if_true]
      exact s.length_missingOpcodes_append_comm ..
    · simp only [demandBoth, if_neg hsame, if_neg (Ne.symm hsame), Nat.add_comm]
  | _ => exact Nat.add_comm ..

theorem demand_le_demandBoth (s : Store) (first second : Report) (e : Entity) :
    s.demand first e ≤ s.demandBoth first second e := by
  cases e with
  | host =>
    rw [demandBoth]
    split <;> omega
  | opcode =>
    rw [demandBoth]
    split
    · refine ((s.nodup_missingOpcodes _ _).subperm ?_).length_le
      exact missingOpcodes_subset (List.subset_append_left _ _) fun _ hknown => hknown
    · omega
  | _ => exact Nat.le_add_right ..

namespace Ingested

variable {now : Stamp} {r : Report} {m : Summary} {user : User} {arch : Arch} {host : Host}
  (h : Ingested now r m user arch host s t) (hs : s.Coherent)

include h

/-- A host that was known still is. -/
theorem knowsHost_of_knowsHost {hostname : String} (hknows : s.knowsHost hostname = true) :
    t.knowsHost hostname = true := by
  obtain ⟨q, hq⟩ := Option.isSome_iff_exists.1 hknows
  obtain ⟨hmem, hname⟩ := Table.mem_of_findNamed? hq
  exact Option.isSome_iff_exists.2 ⟨q, (h.sound.coherent.findNamed?_eq_some_iff (e := .host)).2
    ⟨(h.rows_prefix .host).subset hmem, hname⟩⟩

/-- The host of the report is known. -/
theorem knowsHost_testingHost : t.knowsHost r.testingHost = true :=
  Option.isSome_iff_exists.2 ⟨host.stored, (h.sound.coherent.findNamed?_eq_some_iff (e := .host)).2
    ⟨h.hosts.mem, congrArg some h.hosts.has_key⟩⟩

include hs

/-- An opcode that was known on an architecture still is: the architecture is there already, and so
it is looked up as before. -/
theorem knowsOpcode_of_knowsOpcode {archName name : String}
    (hknows : s.knowsOpcode (s.archIdFor archName) name = true) :
    t.knowsOpcode (t.archIdFor archName) name = true := by
  obtain ⟨o, ho, harch, hopcode⟩ := knowsOpcode_iff.1 hknows
  have hhas : s.has (.arch, o.archId) = true :=
    hs.parents .opcode o ho _ (List.mem_singleton_self _)
  obtain ⟨a, ha, hid, haname⟩ := (hs.eq_archIdFor_iff hhas).1 harch
  have ha' := (h.rows_prefix .arch).subset ha
  have hid' : a.id = t.archIdFor archName :=
    (h.sound.coherent.eq_archIdFor_iff (has_of_mem (e := .arch) ha')).2 ⟨a, ha', rfl, haname⟩
  exact knowsOpcode_iff.2 ⟨o, (h.rows_prefix .opcode).subset ho, by rw [← hid, hid'], hopcode⟩

/-- The opcodes of the report are known. -/
theorem knowsOpcode_of_mem {name : String} (hname : name ∈ r.entries.map Entry.opcode) :
    t.knowsOpcode (t.archIdFor r.arch) name = true := by
  by_cases hknows : s.knowsOpcode (s.archIdFor r.arch) name = true
  · exact h.knowsOpcode_of_knowsOpcode hs hknows
  · rw [hs.archIdFor_eq h.arches] at hknows
    obtain ⟨rows, hrows, hnames, harch⟩ := h.collected.opcodes
    have hmissing := mem_missingOpcodes_iff.2 ⟨hname, hknows⟩
    have hmissing := List.mem_map_of_mem (f := TextCell.text) hmissing
    rw [← hnames] at hmissing
    obtain ⟨o, ho, hopcode⟩ := List.mem_map.1 hmissing
    have hid : arch.id = t.archIdFor r.arch :=
      (h.sound.coherent.eq_archIdFor_iff (has_of_mem (e := .arch) h.arches.mem)).2
        ⟨arch.stored, h.arches.mem, rfl, h.arches.has_key⟩
    refine knowsOpcode_iff.2 ⟨o, ?_, ?_, hopcode⟩
    · rw [hrows]
      exact List.mem_append_right _ ho
    · rw [harch o ho, hid]

/-- A report takes no more identifiers after another one. -/
theorem demand_le (next : Report) (e : Entity) : t.demand next e ≤ s.demand next e := by
  cases e with
  | host =>
    simp only [demand]
    by_cases hknows : s.knowsHost next.testingHost = true
    · rw [if_pos hknows, if_pos (h.knowsHost_of_knowsHost hknows)]
    · rw [if_neg hknows]
      split <;> omega
  | opcode =>
    refine ((t.nodup_missingOpcodes _ _).subperm ?_).length_le
    exact missingOpcodes_subset (List.Subset.refl _) fun _ hknown =>
      h.knowsOpcode_of_knowsOpcode hs hknown
  | _ => exact Nat.le_refl _

/-- **One report after another takes no more identifiers than both together**: what both bring is
known when the second one comes to it. -/
theorem demand_add_le (next : Report) (e : Entity) :
    s.demand r e + t.demand next e ≤ s.demandBoth r next e := by
  cases e with
  | host =>
    rw [demandBoth]
    split
    · rename_i hsame
      have hknown : t.demand next .host = 0 := by
        rw [demand, ← hsame, if_pos h.knowsHost_testingHost]
      omega
    · exact Nat.add_le_add_left (h.demand_le hs next .host) _
  | opcode =>
    rw [demandBoth]
    split
    · rename_i hsame
      rw [demand, demand, ← List.length_append]
      have hdisjoint : (s.missingOpcodes (s.archIdFor r.arch) (r.entries.map Entry.opcode)).Disjoint
          (t.missingOpcodes (t.archIdFor next.arch) (next.entries.map Entry.opcode)) := by
        intro name hfirst hsecond
        refine (mem_missingOpcodes_iff.1 hsecond).2 ?_
        rw [← hsame]
        exact h.knowsOpcode_of_mem hs (mem_missingOpcodes_iff.1 hfirst).1
      have hnodup := (s.nodup_missingOpcodes _ _).append (t.nodup_missingOpcodes _ _) hdisjoint
      refine (hnodup.subperm (List.append_subset.2 ⟨?_, ?_⟩)).length_le
      · exact missingOpcodes_subset (List.subset_append_left _ _) fun _ hknown => hknown
      · refine missingOpcodes_subset (List.subset_append_right _ _) fun name hknown => ?_
        rw [← hsame]
        exact h.knowsOpcode_of_knowsOpcode hs hknown
    · exact Nat.add_le_add_left (h.demand_le hs next .opcode) _
  | _ => exact Nat.le_refl _

end Ingested

end Store

/-! ## Two recordings -/

namespace Action

variable {s : Store} {first second : Report}

/-- **Both reports are recorded exactly if each of them could be alone and they agree on their
host.** -/
theorem records_both_iff (h : s.Sound) (hroom : s.HasRoom (s.demandBoth first second))
    (now now' : Stamp) :
    (∃ m t m' u, recordReport now first s = .ok m t ∧ recordReport now' second t = .ok m' u) ↔
      (first.Fits ∧ s.content.Allows first) ∧ (second.Fits ∧ s.content.Allows second) ∧
        Content.Compatible first second := by
  have hfirst := meets_recordReport h now first
  have haccept : s.offences first = [] ↔ first.Fits ∧ s.content.Allows first := by
    rw [h.offences_eq_nil_iff, h.coherent.acceptable_iff]
  -- what the second report meets after the first one
  have hsecond {m : Summary} {t : Store} (hok : recordReport now first s = .ok m t) :
      (∃ m' u, recordReport now' second t = .ok m' u) ↔
        second.Fits ∧ s.content.Allows second ∧ Content.Compatible first second := by
    obtain ⟨hnone, htook, user, arch, host, hingested⟩ := hfirst.of_ok hok
    have hboth : s.HasRoom (s.demand first + t.demand second) :=
      hroom.mono (hingested.demand_add_le h.coherent second)
    rw [(meets_recordReport hingested.sound now' second).ok_iff (hboth.right htook),
      hingested.sound.offences_eq_nil_iff, hingested.sound.coherent.acceptable_iff,
      hingested.content_eq h.coherent, Content.allows_record_iff (haccept.1 hnone).2]
  constructor
  · rintro ⟨m, t, m', u, hok, hok'⟩
    obtain ⟨hfits, hallows, hcompatible⟩ := (hsecond hok).1 ⟨m', u, hok'⟩
    exact ⟨haccept.1 (hfirst.of_ok hok).1, ⟨hfits, hallows⟩, hcompatible⟩
  · rintro ⟨hfirst', ⟨hfits, hallows⟩, hcompatible⟩
    have hroom' := hroom.mono (s.demand_le_demandBoth first second)
    obtain ⟨m, t, hok⟩ := (hfirst.ok_iff hroom').2 (haccept.2 hfirst')
    obtain ⟨m', u, hok'⟩ := (hsecond hok).2 ⟨hfits, hallows, hcompatible⟩
    exact ⟨m, t, m', u, hok, hok'⟩

theorem content_of_both (h : s.Sound) {now now' : Stamp} {m m' : Summary} {t u : Store}
    (hok : recordReport now first s = .ok m t) (hok' : recordReport now' second t = .ok m' u) :
    u.content = (s.content.record first).record second := by
  obtain ⟨-, -, _, _, _, hfirst⟩ := (meets_recordReport h now first).of_ok hok
  obtain ⟨-, -, _, _, _, hsecond⟩ := (meets_recordReport hfirst.sound now' second).of_ok hok'
  rw [hsecond.content_eq hfirst.sound.coherent, hfirst.content_eq h.coherent]

end Action

namespace Session

variable {s s' : Session} {first second : Report} {store : Store}

/-- Recording one report and then another succeeds both times. -/
def RecordsBoth (now now' : Stamp) (first second : Report) (s s' : Session) : Prop :=
  ∃ m s₁ m', record now first s = .ok m s₁ ∧ record now' second s₁ = .ok m' s'

/-- Two recordings of a session are two recordings of its tables. -/
theorem recordsBoth_iff (hsaved : s.saved = none) (htables : s.image.tables = some store)
    {now now' : Stamp} :
    RecordsBoth now now' first second s s' ↔
      ∃ m t m' u, Action.recordReport now first store = .ok m t ∧
        Action.recordReport now' second t = .ok m' u ∧
        s' = { s with image := { s.image with tables := some u } } := by
  -- the session in between still has no transaction open
  have hnext {t : Store} {m' : Summary} :
      record now' second { s with image := { s.image with tables := some t } } = .ok m' s' ↔
        ∃ u, Action.recordReport now' second t = .ok m' u ∧
          s' = { s with image := { s.image with tables := some u } } :=
    record_eq_ok_iff (s := { s with image := { s.image with tables := some t } }) hsaved rfl
  constructor
  · rintro ⟨m, s₁, m', hok, hok'⟩
    obtain ⟨t, ht, rfl⟩ := (record_eq_ok_iff hsaved htables).1 hok
    obtain ⟨u, hu, hs'⟩ := hnext.1 hok'
    exact ⟨m, t, m', u, ht, hu, hs'⟩
  · rintro ⟨m, t, m', u, ht, hu, hs'⟩
    exact ⟨m, _, m', (record_eq_ok_iff hsaved htables).2 ⟨t, ht, rfl⟩, hnext.2 ⟨u, hu, hs'⟩⟩

theorem exists_recordsBoth_iff (hsaved : s.saved = none) (htables : s.image.tables = some store)
    {now now' : Stamp} :
    (∃ s', RecordsBoth now now' first second s s') ↔
      ∃ m t m' u, Action.recordReport now first store = .ok m t ∧
        Action.recordReport now' second t = .ok m' u := by
  constructor
  · rintro ⟨s', hboth⟩
    obtain ⟨m, t, m', u, hok, hok', -⟩ := (recordsBoth_iff hsaved htables).1 hboth
    exact ⟨m, t, m', u, hok, hok'⟩
  · rintro ⟨m, t, m', u, hok, hok'⟩
    exact ⟨_, (recordsBoth_iff hsaved htables).2 ⟨m, t, m', u, hok, hok', rfl⟩⟩

/-- **The order of two recordings does not matter up to identifiers and times.**  After every run of
the ledger's operations that leaves no transaction open, and with identifiers left for both reports,
they are recorded in one order exactly if they are in the other, and the tables then say the same by
names. -/
theorem record_order {run : List Event} (hrun : ∀ event ∈ run, event.isDirect = false)
    (hsaved : (fresh.steps run).saved = none)
    (htables : (fresh.steps run).image.tables = some store)
    (hroom : store.HasRoom (store.demandBoth first second)) (now₁ now₂ now₃ now₄ : Stamp) :
    ((∃ s', RecordsBoth now₁ now₂ first second (fresh.steps run) s') ↔
      ∃ s', RecordsBoth now₃ now₄ second first (fresh.steps run) s') ∧
    ∀ s₁ s₂, RecordsBoth now₁ now₂ first second (fresh.steps run) s₁ →
      RecordsBoth now₃ now₄ second first (fresh.steps run) s₂ →
      ∃ t u, s₁.image.tables = some t ∧ s₂.image.tables = some u ∧ t.content = u.content := by
  have hsound := sound_steps hrun htables
  have hfirst := Action.records_both_iff hsound hroom now₁ now₂
  have hsecond := Action.records_both_iff hsound (store.demandBoth_comm first second ▸ hroom)
    now₃ now₄
  constructor
  · rw [exists_recordsBoth_iff hsaved htables, hfirst, exists_recordsBoth_iff hsaved htables,
      hsecond]
    constructor
    · rintro ⟨haccepts, haccepts', hcompatible⟩
      exact ⟨haccepts', haccepts, hcompatible.symm⟩
    · rintro ⟨haccepts', haccepts, hcompatible⟩
      exact ⟨haccepts, haccepts', hcompatible.symm⟩
  · intro s₁ s₂ hboth hboth'
    obtain ⟨m₁, t₁, m₂, t, hok₁, hok₂, rfl⟩ := (recordsBoth_iff hsaved htables).1 hboth
    obtain ⟨m₃, u₁, m₄, u, hok₃, hok₄, rfl⟩ := (recordsBoth_iff hsaved htables).1 hboth'
    obtain ⟨-, -, hcompatible⟩ := hfirst.1 ⟨m₁, t₁, m₂, t, hok₁, hok₂⟩
    refine ⟨t, u, rfl, rfl, ?_⟩
    rw [Action.content_of_both hsound hok₁ hok₂, Action.content_of_both hsound hok₃ hok₄,
      Content.record_comm _ hcompatible]

/-- A report from a host and a user of its own, with an opcode that `interleaved` brings as well. -/
def elsewhere : Report :=
  ⟨"fuzzer", "bench", "guest", "arch",
   [.success "mul" 2, .failure "sub" "sub x2" "x2=9" [⟨"x2", "3", "4"⟩, ⟨"pc", "0", "8"⟩]]⟩

/-- The shared opcode gets another identifier in either order, and the tables say the same. -/
theorem record_order_elsewhere :
    ∃ store s₁ s₂ t u, (fresh.steps recordedRun).image.tables = some store ∧
      store.HasRoom (store.demandBoth interleaved elsewhere) ∧
      RecordsBoth .epoch .epoch interleaved elsewhere (fresh.steps recordedRun) s₁ ∧
      RecordsBoth .epoch .epoch elsewhere interleaved (fresh.steps recordedRun) s₂ ∧
      s₁.image.tables = some t ∧ s₂.image.tables = some u ∧ t.content = u.content ∧
      t.opcodes.rows.map Opcode.name = [.text "add", .text "sub", .text "mul"] ∧
      u.opcodes.rows.map Opcode.name = [.text "add", .text "mul", .text "sub"] := by
  obtain ⟨store, htables⟩ := Option.isSome_iff_exists.1
    (show (fresh.steps recordedRun).image.tables.isSome by decide +kernel)
  have hroom : store.HasRoom (store.demandBoth interleaved elsewhere) := fun e => by
    have hall : (fresh.steps recordedRun).image.tables.all (fun store => Entity.all.all fun e =>
        (store.table e).last + store.demandBoth interleaved elsewhere e ≤ Store.maxId) = true := by
      decide +kernel
    rw [htables] at hall
    simpa using List.all_eq_true.1 hall e (Entity.mem_all e)
  -- two recordings are evaluated at once, down to the names of the opcodes
  have heval (first second : Report) (names : List TextCell)
      (h : (match record .epoch first (fresh.steps recordedRun) with
        | .ok _ s₁ => match record .epoch second s₁ with
          | .ok _ s' => s'.image.tables.any fun t => t.opcodes.rows.map Opcode.name = names
          | .error .. => false
        | .error .. => false) = true) :
      ∃ s', RecordsBoth .epoch .epoch first second (fresh.steps recordedRun) s' ∧
        s'.image.tables.any (fun t => t.opcodes.rows.map Opcode.name = names) = true := by
    split at h
    · rename_i m s₁ hok
      split at h
      · rename_i m' s' hok'
        exact ⟨s', ⟨m, s₁, m', hok, hok'⟩, h⟩
      · cases h
    · cases h
  obtain ⟨s₁, hboth, hnames⟩ :=
    heval interleaved elsewhere [.text "add", .text "sub", .text "mul"] (by decide +kernel)
  obtain ⟨s₂, hboth', hnames'⟩ :=
    heval elsewhere interleaved [.text "add", .text "mul", .text "sub"] (by decide +kernel)
  obtain ⟨t, u, ht, hu, hcontent⟩ :=
    (record_order (by decide) rfl htables hroom .epoch .epoch .epoch .epoch).2 s₁ s₂ hboth hboth'
  refine ⟨store, s₁, s₂, t, u, htables, hroom, hboth, hboth', ht, hu, hcontent, ?_, ?_⟩
  · simpa [ht] using hnames
  · simpa [hu] using hnames'

end Session

end FuzzLedger
