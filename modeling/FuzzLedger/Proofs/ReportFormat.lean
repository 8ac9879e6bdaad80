import FuzzLedger.Codec.Report
import FuzzLedger.Proofs.JsonObject
import FuzzLedger.Proofs.JsonText

/-!
# Which JSON texts are reports

A report is an object, its entries and their state differences are objects too, and of each only the
values under its own keys matter (`under`).  `Report.DescribedBy` says which reports a datum
describes, `Report.InFormat` what is taken for granted of it: that what should be an object is not
written as an array, and that keys that nobody asks for have single values.

* `Entry.splitMembers_ok_iff` — the kind of an entry is found wherever its key stands.
* `StateDiff.readJson_ok_iff`, `Entry.readJson_ok_iff`, `Report.readJson_ok_iff` — a datum is read
  as what it describes and as nothing else.  An entry is read in full before its kind is known, which
  can only fail where it describes no entry (`Entry.readStop_eq_none`).
* `Report.describedBy_iff_of_rearranged` — neither the order of keys nor other keys beside them
  matter, at any level.
* `Report.ofText_ok_iff`, `Report.accepts_format` — the same for texts.
-/

set_option autoImplicit false

namespace FuzzLedger

open Json

/-! ## What data describe -/

/-- The datum describes the difference. -/
def StateDiff.DescribedBy (d : StateDiff) (v : Datum) : Prop :=
  ∃ members, v = .map members ∧ under "location" members = [.text d.location] ∧
    under "expected" members = [.text d.expected] ∧ under "actual" members = [.text d.actual]

/-- The datum describes the entry. -/
def Entry.DescribedBy : Entry → Datum → Prop
  | .success opcode count, v =>
    ∃ members, v = .map members ∧ under "type" members = [.text "success"] ∧
      under "opcode" members = [.text opcode] ∧ under "count" members = [.int count.toInt]
  | .failure opcode pretty arguments state, v =>
    ∃ members, v = .map members ∧ under "type" members = [.text "failure"] ∧
      under "opcode" members = [.text opcode] ∧ under "pretty" members = [.text pretty] ∧
      under "raw-operands" members = [.text arguments] ∧
      Lists (fun v d => StateDiff.DescribedBy d v) (under "state" members) state

/-- The datum describes the report. -/
def Report.DescribedBy (r : Report) (v : Datum) : Prop :=
  ∃ members, v = .map members ∧ under "fuzzing-host" members = [.text r.fuzzingHost] ∧
    under "testing-host" members = [.text r.testingHost] ∧ under "user" members = [.text r.user] ∧
    under "arch" members = [.text r.arch] ∧
    Lists (fun v entry => Entry.DescribedBy entry v) (under "entries" members) r.entries

/-! ## What is taken for granted -/

/-- A string, a whole number, a truth value or null. -/
def Json.Datum.IsSingle : Datum → Prop
  | .null | .bool _ | .int _ | .text _ => True
  | .real _ | .seq _ | .map _ => False

/-- The keys of a difference. -/
def StateDiff.keys : List String := ["location", "expected", "actual"]

namespace Entry

/-- The name of a kind. -/
def Kind.name : Kind → String
  | .success => "success"
  | .failure => "failure"

/-- The keys of the entries of a kind. -/
def Kind.keys : Kind → List String
  | .success => ["type", "opcode", "count"]
  | .failure => ["type", "opcode", "pretty", "raw-operands", "state"]

end Entry

/-- The keys of a report. -/
def Report.keys : List String := ["fuzzing-host", "testing-host", "user", "arch", "entries"]

/-- An object whose other keys have single values. -/
def StateDiff.InFormat (v : Datum) : Prop :=
  ∃ members, v = .map members ∧ ∀ m ∈ members, m.1 ∉ StateDiff.keys → m.2.IsSingle

/-- An object in which, if it is of a kind, the keys that this kind does not have have single
values, and whose differences are objects. -/
def Entry.InFormat (v : Datum) : Prop :=
  ∃ members, v = .map members ∧
    (∀ kind : Kind, under "type" members = [.text kind.name] →
      ∀ m ∈ members, m.1 ∉ kind.keys → m.2.IsSingle) ∧
    ∀ items, under "state" members = [.seq items] → under "type" members = [.text "failure"] →
      ∀ d ∈ items, StateDiff.InFormat d

/-- An object whose entries are objects. -/
def Report.InFormat (v : Datum) : Prop :=
  ∃ members, v = .map members ∧
    ∀ items, under "entries" members = [.seq items] → ∀ entry ∈ items, Entry.InFormat entry

/-! ## Reading -/

section Reading

variable {source : Source} {room : Nat} {members : List (String × Datum)}

theorem readStop_of_isSingle {v : Datum} (h : v.IsSingle) : v.toTree.readStop room = none := by
  cases v with
  | real _ | seq _ | map _ => exact h.elim
  | _ => rfl

/-- A datum that describes a difference has no fault for whoever needs it. -/
theorem StateDiff.readStop_eq_none {d : StateDiff} {v : Datum} (h : d.DescribedBy v)
    (hformat : StateDiff.InFormat v) : v.toTree.readStop (room + 1) = none := by
  obtain ⟨members, rfl, hlocation, hexpected, hactual⟩ := h
  obtain ⟨_, heq, hothers⟩ := hformat
  cases heq
  have hmembers : (Datum.membersTree members).readStop room = none := by
    refine Datum.readStop_membersTree fun m hm => ?_
    obtain ⟨key, w⟩ := m
    by_cases hkey : key ∈ StateDiff.keys
    · simp only [StateDiff.keys, List.mem_cons, List.not_mem_nil, or_false] at hkey
      rcases hkey with rfl | rfl | rfl
      · rw [eq_of_under hlocation hm]
        rfl
      · rw [eq_of_under hexpected hm]
        rfl
      · rw [eq_of_under hactual hm]
        rfl
    · exact readStop_of_isSingle (hothers _ hm hkey)
  exact hmembers

theorem StateDiff.readJson_ok_iff {d : StateDiff} :
    StateDiff.readJson source (room + 1) (Datum.map members).toTree = .ok d ↔
      d.DescribedBy (.map members) := by
  unfold StateDiff.readJson
  rw [bind_ok_iff]
  constructor
  · rintro ⟨⟨location, expected, actual, _⟩, hread, heq⟩
    obtain ⟨hlocation, hexpected, hactual, -⟩ := (readRecord_ok_iff _ (by decide)).1 hread
    cases heq
    exact ⟨members, rfl, gives_text.1 hlocation, gives_text.1 hexpected, gives_text.1 hactual⟩
  · rintro ⟨members', heq, hlocation, hexpected, hactual⟩
    cases heq
    refine ⟨(d.location, d.expected, d.actual, ()), (readRecord_ok_iff _ (by decide)).2 ?_, rfl⟩
    exact ⟨gives_text.2 hlocation, gives_text.2 hexpected, gives_text.2 hactual, trivial⟩

namespace Entry

theorem readKind_ok_iff {v : Datum} {kind : Kind} :
    readKind v.toTree = .ok kind ↔ v = .text kind.name := by
  cases v with
  | text name =>
    rw [Datum.text.injEq]
    show (if name = "success" then Except.ok Kind.success
      else if name = "failure" then Except.ok Kind.failure
      else Except.error (Fault.unknownVariant name ["success", "failure"])) = _ ↔ _
    cases kind with
    | success =>
      show _ ↔ name = "success"
      split <;> simp_all
      split <;> simp_all
    | failure =>
      show _ ↔ name = "failure"
      split <;> simp_all
  | real x =>
    rw [Datum.toTree]
    cases x.value <;> exact ⟨nofun, nofun⟩
  | _ => exact ⟨nofun, nofun⟩

/-- The kind that is found: the one found before if no value is left under its key, or else the one
that the only value names. -/
def Finds (kind : Kind) : Option Kind → List Datum → Prop
  | some found, vs => vs = [] ∧ found = kind
  | none, vs => vs = [.text kind.name]

/-- **The kind of an entry is found wherever its key stands**, and all other members are kept. -/
theorem splitMembers_ok_iff {found : Option Kind} {kind : Kind} {rest : Members} :
    splitMembers room found (Datum.membersTree members) = .ok (some kind, rest) ↔
      Finds kind found (under kindKey members) ∧
      (∀ m ∈ members, m.1 ≠ kindKey → m.2.toTree.readStop room = none) ∧
      rest = Datum.membersTree (members.filter fun m => m.1 ≠ kindKey) := by
  induction members generalizing found rest with
  | nil =>
    show Except.ok (found, Members.done) = _ ↔ _
    rw [Except.ok.injEq, Prod.mk.injEq]
    cases found with
    | none => simp [Finds, under]
    | some found => simp [Finds, under, eq_comm, Datum.membersTree]
  | cons m members ih =>
    obtain ⟨key, v⟩ := m
    rw [Datum.membersTree, splitMembers]
    by_cases hkey : key = kindKey
    · subst hkey
      rw [if_pos rfl, under_cons_self, List.filter_cons_of_neg (by simp)]
      cases found with
      | some found =>
        constructor
        · intro h
          cases h
        · rintro ⟨⟨h, -⟩, -⟩
          cases h
      | none =>
        show (readKind v.toTree >>= fun found => _) = _ ↔ _
        rw [bind_ok_iff]
        constructor
        · rintro ⟨k, hk, hrest⟩
          obtain ⟨⟨hnone, rfl⟩, hstop, heq⟩ := ih.1 hrest
          refine ⟨?_, ?_, heq⟩
          · rw [readKind_ok_iff.1 hk, hnone]
            rfl
          · exact List.forall_mem_cons.2 ⟨fun h => absurd rfl h, hstop⟩
        · rintro ⟨hfinds, hstop, heq⟩
          obtain ⟨rfl, hnone⟩ := List.cons.inj hfinds
          refine ⟨kind, readKind_ok_iff.2 rfl, ih.2 ⟨⟨hnone, rfl⟩, ?_, heq⟩⟩
          exact (List.forall_mem_cons.1 hstop).2
    · rw [if_neg hkey, under_cons_ne hkey, List.filter_cons_of_pos (by simpa using hkey),
        List.forall_mem_cons, Datum.membersTree, bind_ok_iff]
      constructor
      · rintro ⟨_, hstop, hrest⟩
        have hv : v.toTree.readStop room = none := by
          cases hread : v.toTree.readStop room with
          | none => rfl
          | some stop =>
            rw [hread] at hstop
            cases hstop
        obtain ⟨⟨kind', rest'⟩, hsplit, heq⟩ := bind_ok hrest
        cases heq
        obtain ⟨hfinds, hstops, rfl⟩ := ih.1 hsplit
        exact ⟨hfinds, ⟨fun _ => hv, hstops⟩, rfl⟩
      · rintro ⟨hfinds, ⟨hv, hstops⟩, rfl⟩
        refine ⟨(), by rw [hv hkey]; rfl, bind_ok_iff.2 ⟨_, ih.2 ⟨hfinds, hstops, rfl⟩, rfl⟩⟩

theorem readFields_success_ok_iff {entry : Entry} :
    readFields (room + 1) .success (Datum.map members).toTree = .ok entry ↔
      ∃ opcode count, entry = .success opcode count ∧
        under "opcode" members = [.text opcode] ∧ under "count" members = [.int count.toInt] := by
  unfold readFields
  rw [bind_ok_iff]
  constructor
  · rintro ⟨⟨opcode, count, _⟩, hread, heq⟩
    obtain ⟨hopcode, hcount, -⟩ := (readRecord_ok_iff _ (by decide)).1 hread
    cases heq
    exact ⟨opcode, count, rfl, gives_text.1 hopcode, gives_count.1 hcount⟩
  · rintro ⟨opcode, count, rfl, hopcode, hcount⟩
    refine ⟨(opcode, count, ()), (readRecord_ok_iff _ (by decide)).2 ?_, rfl⟩
    exact ⟨gives_text.2 hopcode, gives_count.2 hcount, trivial⟩

theorem readFields_failure_ok_iff {entry : Entry} :
    readFields (room + 2) .failure (Datum.map members).toTree = .ok entry ↔
      ∃ opcode pretty arguments state, entry = .failure opcode pretty arguments state ∧
        under "opcode" members = [.text opcode] ∧ under "pretty" members = [.text pretty] ∧
        under "raw-operands" members = [.text arguments] ∧
        Lists (fun v d => StateDiff.readJson .buffered room v.toTree = .ok d)
          (under "state" members) state := by
  unfold readFields
  rw [bind_ok_iff]
  constructor
  · rintro ⟨⟨opcode, pretty, arguments, state, _⟩, hread, heq⟩
    obtain ⟨hopcode, hpretty, harguments, hstate, -⟩ := (readRecord_ok_iff _ (by decide)).1 hread
    cases heq
    exact ⟨opcode, pretty, arguments, state, rfl, gives_text.1 hopcode, gives_text.1 hpretty,
      gives_text.1 harguments, gives_list.1 hstate⟩
  · rintro ⟨opcode, pretty, arguments, state, rfl, hopcode, hpretty, harguments, hstate⟩
    refine ⟨(opcode, pretty, arguments, state, ()), (readRecord_ok_iff _ (by decide)).2 ?_, rfl⟩
    exact ⟨gives_text.2 hopcode, gives_text.2 hpretty, gives_text.2 harguments,
      gives_list.2 hstate, trivial⟩

/-- An entry is read in two steps: its members are all read, and then those of its kind are looked
at. -/
theorem readJson_ok_iff_exists_kind {entry : Entry} :
    readJson source (room + 1) (Datum.map members).toTree = .ok entry ↔
      ∃ kind, under kindKey members = [.text kind.name] ∧
        (∀ m ∈ members, m.1 ≠ kindKey → m.2.toTree.readStop room = none) ∧
        readFields (room + 1) kind (Datum.map (members.filter fun m => m.1 ≠ kindKey)).toTree =
          .ok entry := by
  show (splitMembers room none (Datum.membersTree members) >>= fun split => _) = _ ↔ _
  rw [bind_ok_iff]
  constructor
  · rintro ⟨⟨found, rest⟩, hsplit, hread⟩
    cases found with
    | none => cases hread
    | some kind =>
      obtain ⟨hkind, hstop, rfl⟩ := splitMembers_ok_iff.1 hsplit
      exact ⟨kind, hkind, hstop, hread⟩
  · rintro ⟨kind, hkind, hstop, hread⟩
    exact ⟨(some kind, _), splitMembers_ok_iff.2 ⟨hkind, hstop, rfl⟩, hread⟩

/-- What describes an entry has no fault for whoever reads all of it. -/
theorem readStop_eq_none {entry : Entry} (h : entry.DescribedBy (.map members))
    (hformat : Entry.InFormat (.map members)) :
    ∀ m ∈ members, m.1 ≠ kindKey → m.2.toTree.readStop (room + 2) = none := by
  obtain ⟨_, heq, hothers, hstates⟩ := hformat
  cases heq
  intro m hm hne
  obtain ⟨key, w⟩ := m
  cases entry with
  | success opcode count =>
    obtain ⟨_, heq, hkind, hopcode, hcount⟩ := h
    cases heq
    by_cases hkey : key ∈ Kind.success.keys
    · simp only [Kind.keys, List.mem_cons, List.not_mem_nil, or_false] at hkey
      rcases hkey with rfl | rfl | rfl
      · exact absurd rfl hne
      · rw [eq_of_under hopcode hm]
        rfl
      · rw [eq_of_under hcount hm]
        rfl
    · exact readStop_of_isSingle (hothers .success hkind _ hm hkey)
  | failure opcode pretty arguments state =>
    obtain ⟨_, heq, hkind, hopcode, hpretty, harguments, hstate⟩ := h
    cases heq
    by_cases hkey : key ∈ Kind.failure.keys
    · simp only [Kind.keys, List.mem_cons, List.not_mem_nil, or_false] at hkey
      rcases hkey with rfl | rfl | rfl | rfl | rfl
      · exact absurd rfl hne
      · rw [eq_of_under hopcode hm]
        rfl
      · rw [eq_of_under hpretty hm]
        rfl
      · rw [eq_of_under harguments hm]
        rfl
      · -- the differences are objects of single values
        rcases hstate with ⟨hnone, -⟩ | ⟨items, hitems, hdescribed⟩
        · exact absurd rfl (under_eq_nil_iff.1 hnone _ hm)
        · rw [eq_of_under hitems hm]
          have hstop : (Datum.itemsTree items).readStop (room + 1) = none := by
            refine Datum.readStop_itemsTree fun v hv => ?_
            obtain ⟨d, -, hd⟩ := exists_of_forall₂ hdescribed hv
            exact StateDiff.readStop_eq_none hd (hstates items hitems hkind v hv)
          exact hstop
    · exact readStop_of_isSingle (hothers .failure hkind _ hm hkey)

/-- **An entry is read from what describes it.** -/
theorem readJson_ok_iff {entry : Entry} (hformat : Entry.InFormat (.map members)) :
    readJson source (room + 3) (Datum.map members).toTree = .ok entry ↔
      entry.DescribedBy (.map members) := by
  have hstates : ∀ items, under "state" members = [.seq items] →
      under "type" members = [.text "failure"] → ∀ v ∈ items, ∀ d,
        StateDiff.readJson .buffered (room + 1) v.toTree = .ok d ↔ d.DescribedBy v := by
    obtain ⟨_, heq, -, hstates⟩ := hformat
    cases heq
    intro items hitems hkind v hv d
    obtain ⟨ms, rfl, -⟩ := hstates items hitems hkind v hv
    exact StateDiff.readJson_ok_iff
  have hkeep {key : String} (h : key ≠ kindKey) :
      under key (members.filter fun m => m.1 ≠ kindKey) = under key members := under_filter_ne h
  rw [readJson_ok_iff_exists_kind]
  constructor
  · rintro ⟨kind, hkind, -, hread⟩
    cases kind with
    | success =>
      obtain ⟨opcode, count, rfl, hopcode, hcount⟩ := readFields_success_ok_iff.1 hread
      rw [hkeep (by decide)] at hopcode hcount
      exact ⟨members, rfl, hkind, hopcode, hcount⟩
    | failure =>
      obtain ⟨opcode, pretty, arguments, state, rfl, hopcode, hpretty, harguments, hstate⟩ :=
        readFields_failure_ok_iff.1 hread
      rw [hkeep (by decide)] at hopcode hpretty harguments hstate
      refine ⟨members, rfl, hkind, hopcode, hpretty, harguments, ?_⟩
      exact (lists_congr fun items hitems => hstates items hitems hkind).1 hstate
  · intro h
    have hstop := @readStop_eq_none room members entry h hformat
    cases entry with
    | success opcode count =>
      obtain ⟨_, heq, hkind, hopcode, hcount⟩ := h
      cases heq
      refine ⟨.success, hkind, hstop, readFields_success_ok_iff.2 ⟨opcode, count, rfl, ?_⟩⟩
      rw [hkeep (by decide), hkeep (by decide)]
      exact ⟨hopcode, hcount⟩
    | failure opcode pretty arguments state =>
      obtain ⟨_, heq, hkind, hopcode, hpretty, harguments, hstate⟩ := h
      cases heq
      refine ⟨.failure, hkind, hstop,
        readFields_failure_ok_iff.2 ⟨opcode, pretty, arguments, state, rfl, ?_⟩⟩
      rw [hkeep (by decide), hkeep (by decide), hkeep (by decide), hkeep (by decide)]
      refine ⟨hopcode, hpretty, harguments, ?_⟩
      exact (lists_congr fun items hitems => hstates items hitems hkind).2 hstate

end Entry

/-- **A report is read from what describes it.** -/
theorem Report.readJson_ok_iff {r : Report} {v : Datum} (hformat : Report.InFormat v) :
    Report.readJson source (room + 5) v.toTree = .ok r ↔ r.DescribedBy v := by
  obtain ⟨members, rfl, hentries⟩ := hformat
  have hentries : ∀ items, under "entries" members = [.seq items] → ∀ v ∈ items, ∀ entry,
      Entry.readJson source (room + 3) v.toTree = .ok entry ↔ entry.DescribedBy v := by
    intro items hitems v hv entry
    have hformat := hentries items hitems v hv
    obtain ⟨ms, rfl, -⟩ := id hformat
    exact Entry.readJson_ok_iff hformat
  unfold Report.readJson
  rw [bind_ok_iff]
  constructor
  · rintro ⟨⟨fuzzingHost, testingHost, user, arch, entries, _⟩, hread, heq⟩
    obtain ⟨hfuzzer, htester, huser, harch, hlist, -⟩ := (readRecord_ok_iff _ (by decide)).1 hread
    cases heq
    refine ⟨members, rfl, gives_text.1 hfuzzer, gives_text.1 htester, gives_text.1 huser,
      gives_text.1 harch, ?_⟩
    exact (lists_congr hentries).1 (gives_list.1 hlist)
  · rintro ⟨_, heq, hfuzzer, htester, huser, harch, hlist⟩
    cases heq
    refine ⟨(r.fuzzingHost, r.testingHost, r.user, r.arch, r.entries, ()),
      (readRecord_ok_iff _ (by decide)).2 ?_, rfl⟩
    exact ⟨gives_text.2 hfuzzer, gives_text.2 htester, gives_text.2 huser, gives_text.2 harch,
      gives_list.2 ((lists_congr hentries).2 hlist), trivial⟩

end Reading

/-! ## The order of keys, and other keys -/

/-- The same difference, with its keys in another order and other keys beside them. -/
def StateDiff.Rearranged (v v' : Datum) : Prop :=
  ∃ members members', v = .map members ∧ v' = .map members' ∧
    Extends (· ∈ StateDiff.keys) members members'

/-- The key is one of an entry with these members. -/
def Entry.Knows (members : List (String × Datum)) (key : String) : Prop :=
  key = "type" ∨ ∃ kind : Kind, under "type" members = [.text kind.name] ∧ key ∈ kind.keys

/-- The same entry, with its keys in another order and other keys beside them, and so with its
differences. -/
def Entry.Rearranged (v v' : Datum) : Prop :=
  ∃ members mid members', v = .map members ∧ v' = .map members' ∧
    ReplacedUnder "state" StateDiff.Rearranged members mid ∧
    Extends (Entry.Knows members) mid members'

/-- The same report, with its keys in another order and other keys beside them, and so with its
entries. -/
def Report.Rearranged (v v' : Datum) : Prop :=
  ∃ members mid members', v = .map members ∧ v' = .map members' ∧
    ReplacedUnder "entries" Entry.Rearranged members mid ∧
    Extends (· ∈ Report.keys) mid members'

theorem StateDiff.describedBy_iff_of_rearranged {v v' : Datum} (h : StateDiff.Rearranged v v')
    (d : StateDiff) : d.DescribedBy v ↔ d.DescribedBy v' := by
  obtain ⟨members, members', rfl, rfl, h⟩ := h
  unfold DescribedBy
  simp only [Datum.map.injEq, exists_eq_left']
  rw [h.under_eq_singleton_iff (by decide), h.under_eq_singleton_iff (by decide),
    h.under_eq_singleton_iff (by decide)]

theorem Entry.describedBy_iff_of_rearranged {v v' : Datum} (h : Entry.Rearranged v v')
    (entry : Entry) : entry.DescribedBy v ↔ entry.DescribedBy v' := by
  obtain ⟨members, mid, members', rfl, rfl, hreplaced, hextends⟩ := h
  have hunder {key : String} (hkey : Entry.Knows members key) (hne : key ≠ "state") {w : Datum} :
      under key members = [w] ↔ under key members' = [w] := by
    rw [hextends.under_eq_singleton_iff hkey, hreplaced.under_eq hne]
  have hkind : ∀ w, under "type" members = [w] ↔ under "type" members' = [w] :=
    fun w => hunder (.inl rfl) (by decide)
  cases entry with
  | success opcode count =>
    unfold DescribedBy
    simp only [Datum.map.injEq, exists_eq_left']
    rw [← hkind]
    refine and_congr_right fun hsuccess => ?_
    have hknows {key : String} (hkey : key ∈ Kind.success.keys) : Entry.Knows members key :=
      .inr ⟨.success, hsuccess, hkey⟩
    rw [hunder (hknows (by decide)) (by decide), hunder (hknows (by decide)) (by decide)]
  | failure opcode pretty arguments state =>
    unfold DescribedBy
    simp only [Datum.map.injEq, exists_eq_left']
    rw [← hkind]
    refine and_congr_right fun hfailure => ?_
    have hknows {key : String} (hkey : key ∈ Kind.failure.keys) : Entry.Knows members key :=
      .inr ⟨.failure, hfailure, hkey⟩
    have hstate := lists_iff_of_rearranged hreplaced hextends (hknows (by decide))
      (fun _ _ h d => StateDiff.describedBy_iff_of_rearranged h d) state
    rw [hunder (hknows (by decide)) (by decide), hunder (hknows (by decide)) (by decide),
      hunder (hknows (by decide)) (by decide), hstate]

/-- **Neither the order of keys nor other keys matter**, at any level. -/
theorem Report.describedBy_iff_of_rearranged {v v' : Datum} (h : Report.Rearranged v v')
    (r : Report) : r.DescribedBy v ↔ r.DescribedBy v' := by
  obtain ⟨members, mid, members', rfl, rfl, hreplaced, hextends⟩ := h
  have hunder {key : String} (hkey : key ∈ Report.keys) (hne : key ≠ "entries") {w : Datum} :
      under key members = [w] ↔ under key members' = [w] := by
    rw [hextends.under_eq_singleton_iff hkey, hreplaced.under_eq hne]
  unfold DescribedBy
  simp only [Datum.map.injEq, exists_eq_left']
  have hentries := lists_iff_of_rearranged hreplaced hextends (by decide)
    (fun _ _ h entry => Entry.describedBy_iff_of_rearranged h entry) r.entries
  rw [hunder (by decide) (by decide), hunder (by decide) (by decide),
    hunder (by decide) (by decide), hunder (by decide) (by decide), hentries]

/-! ## Texts -/

theorem readDocument_ok_iff {α : Type} {read : Reader α} {text : String} {v : Datum}
    (h : TextDenotes text v) {x : α} :
    readDocument read text = .ok x ↔ read .text maxLevels v.toTree = .ok x := by
  have hdocument := h.ofText
  unfold readDocument
  simp only [hdocument, Bool.false_eq_true, if_false]
  cases read .text maxLevels v.toTree <;> exact Iff.rfl

theorem Report.ofText_ok_iff {text : String} {v : Datum} (htext : TextDenotes text v)
    (hformat : Report.InFormat v) (r : Report) :
    Report.ofText text = .ok r ↔ r.DescribedBy v := by
  have hread : Report.readJson .text maxLevels v.toTree = .ok r ↔ r.DescribedBy v :=
    @Report.readJson_ok_iff .text 122 r v hformat
  rw [← hread]
  exact readDocument_ok_iff htext

/-- **Exactly the report format is accepted.**  A text is read as the report that it describes, and
if it describes none it is refused.  With its keys in another order, or with other keys beside them,
at any level, it is read as before or refused as before. -/
theorem Report.accepts_format {text : String} {v : Datum} (htext : TextDenotes text v)
    (hformat : Report.InFormat v) :
    (∀ r, Report.ofText text = .ok r ↔ r.DescribedBy v) ∧
      ∀ text' v', TextDenotes text' v' → Report.InFormat v' → Report.Rearranged v v' →
        ∀ r, Report.ofText text' = .ok r ↔ Report.ofText text = .ok r := by
  refine ⟨Report.ofText_ok_iff htext hformat, fun text' v' htext' hformat' h r => ?_⟩
  rw [Report.ofText_ok_iff htext' hformat', Report.ofText_ok_iff htext hformat]
  exact (Report.describedBy_iff_of_rearranged h r).symm

/-! ### A report in two forms -/

/-- A report of one success. -/
def Report.brief : Report := ⟨"f", "t", "u", "a", [.success "add" (-1)]⟩

/-- The entry of the report. -/
def briefEntry : List (String × Datum) :=
  [("type", .text "success"), ("opcode", .text "add"), ("count", .int (-1))]

/-- The members of the report, with an entry of these members. -/
def briefMembers (entry : List (String × Datum)) : List (String × Datum) :=
  [("fuzzing-host", .text "f"), ("testing-host", .text "t"), ("user", .text "u"),
    ("arch", .text "a"), ("entries", .seq [.map entry])]

/-- A member with blanks before its key and its value. -/
def looseMember (key : String) (value : Datum) (chars : List Char) : Member :=
  ⟨[' '], key, escapeChars key.toList, [], ⟨[' '], value, chars, []⟩⟩

/-- The entry with its kind last, another key first, and an escape that it does not need. -/
def looseEntry : List Member :=
  [looseMember "note" .null ['n', 'u', 'l', 'l'], looseMember "count" (.int (-1)) ['-', '1'],
    looseMember "opcode" (.text "add") ['"', '\\', 'u', '0', '0', '6', '1', 'd', 'd', '"'],
    looseMember "type" (.text "success") (stringChars "success")]

/-- How an object with these members is written. -/
def objectChars : List Member → List Char
  | [] => ['\x7b', '\x7d']
  | m :: rest => '\x7b' :: (m.text ++ membersClose rest)

/-- The report with its keys in the opposite order and another key first. -/
def looseReport : List Member :=
  [looseMember "seen" (.bool true) ['t', 'r', 'u', 'e'],
    looseMember "entries" (.seq [.map (looseEntry.map Member.pair)])
      ('[' :: (objectChars looseEntry ++ [']'])),
    looseMember "arch" (.text "a") (stringChars "a"),
    looseMember "user" (.text "u") (stringChars "u"),
    looseMember "testing-host" (.text "t") (stringChars "t"),
    looseMember "fuzzing-host" (.text "f") (stringChars "f")]

/-- The text of this report. -/
def looseText : String :=
  "\x7b \"seen\": true, \"entries\": [\x7b \"note\": null, \"count\": -1, " ++
    "\"opcode\": \"\\u0061dd\", \"type\": \"success\"\x7d], \"arch\": \"a\", " ++
    "\"user\": \"u\", \"testing-host\": \"t\", \"fuzzing-host\": \"f\"\x7d"

theorem loose {key : String} {value : Datum} {chars : List Char} (h : Denotes chars value) :
    (looseMember key value chars).Spaced ∧
      Denotes (looseMember key value chars).part.chars
        (looseMember key value chars).part.value := by
  have hblank : Blank [' '] := List.forall_mem_singleton.2 rfl
  exact ⟨⟨hblank, denotesChars_escapeChars _, blank_nil, hblank, blank_nil⟩, h⟩

theorem denotes_objectChars {members : List Member}
    (h : ∀ m ∈ members, m.Spaced ∧ Denotes m.part.chars m.part.value) :
    Denotes (objectChars members) (.map (members.map Member.pair)) := by
  cases members with
  | nil => exact .emptyMap blank_nil
  | cons m rest => exact .map (fun q hq => (h q hq).1) fun q hq => (h q hq).2

theorem denotes_stringChars (s : String) : Denotes (stringChars s) (.text s) :=
  .text (denotesChars_escapeChars _)

theorem denotes_looseEntry :
    Denotes (objectChars looseEntry) (.map (looseEntry.map Member.pair)) := by
  have hcount : Denotes ['-', '1'] (.int (-1)) := by
    have hword : IsWord (-1) := by
      unfold IsWord
      decide
    have hchars : intChars (-1) = ['-', '1'] := by decide +kernel
    rw [← hchars]
    exact .int hword
  have hopcode : Denotes ['"', '\\', 'u', '0', '0', '6', '1', 'd', 'd', '"'] (.text "add") := by
    have hplain : DenotesChars ['d', 'd'] ['d', 'd'] := denotesChars_escapeChars ['d', 'd']
    have hunit : UnitDigits ['0', '0', '6', '1'] 'a'.toNat :=
      @UnitDigits.mk '0' '0' '6' '1' 0 0 6 1 (by decide) (by decide) (by decide) (by decide)
    exact @Denotes.text _ "add" (.unit hunit hplain)
  refine denotes_objectChars ?_
  exact List.forall_mem_cons.2 ⟨loose .null, List.forall_mem_cons.2 ⟨loose hcount,
    List.forall_mem_cons.2 ⟨loose hopcode, List.forall_mem_singleton.2
      (loose (denotes_stringChars _))⟩⟩⟩

theorem denotes_looseText : TextDenotes looseText (.map (looseReport.map Member.pair)) := by
  have hentries : Denotes ('[' :: (objectChars looseEntry ++ [']']))
      (.seq [.map (looseEntry.map Member.pair)]) := by
    let part : Json.Part := ⟨[], .map (looseEntry.map Member.pair), objectChars looseEntry, []⟩
    have hspaced : ∀ q ∈ [part], q.Spaced := List.forall_mem_singleton.2 ⟨blank_nil, blank_nil⟩
    have hdenotes : ∀ q ∈ [part], Denotes q.chars q.value :=
      List.forall_mem_singleton.2 denotes_looseEntry
    have hseq := Denotes.seq hspaced hdenotes
    rw [Part.text, List.nil_append, List.append_nil] at hseq
    exact hseq
  have hchars : Denotes (objectChars looseReport) (.map (looseReport.map Member.pair)) := by
    refine denotes_objectChars ?_
    exact List.forall_mem_cons.2 ⟨loose .wordTrue, List.forall_mem_cons.2 ⟨loose hentries,
      List.forall_mem_cons.2 ⟨loose (denotes_stringChars _), List.forall_mem_cons.2
        ⟨loose (denotes_stringChars _), List.forall_mem_cons.2 ⟨loose (denotes_stringChars _),
          List.forall_mem_singleton.2 (loose (denotes_stringChars _))⟩⟩⟩⟩⟩
  exact ⟨[], objectChars looseReport, [], blank_nil, hchars, blank_nil, by decide +kernel⟩

/-- An entry of single values has no differences, whatever its kind. -/
theorem Entry.inFormat_of_isSingle {members : List (String × Datum)}
    (h : ∀ m ∈ members, m.2.IsSingle) : Entry.InFormat (.map members) := by
  refine ⟨members, rfl, fun _ _ m hm _ => h m hm, fun items hitems _ => ?_⟩
  have hmem : ("state", Datum.seq items) ∈ members := by
    rw [← mem_under_iff, hitems]
    exact List.mem_singleton_self _
  exact (h _ hmem).elim

theorem textDenotes_brief :
    TextDenotes Report.brief.toJson.render (.map (briefMembers briefEntry)) := by
  have hentry : Writable 1 (Entry.success "add" (-1)).toJson := by
    refine .obj (List.forall_mem_cons.2 ⟨.text _, List.forall_mem_cons.2 ⟨.text _,
      List.forall_mem_singleton.2 (.int ?_)⟩⟩)
    unfold IsWord
    decide
  have hreport : Writable 3 Report.brief.toJson := by
    refine .obj (List.forall_mem_cons.2 ⟨.text _, List.forall_mem_cons.2 ⟨.text _,
      List.forall_mem_cons.2 ⟨.text _, List.forall_mem_cons.2 ⟨.text _,
        List.forall_mem_singleton.2 (.arr (List.forall_mem_singleton.2 hentry))⟩⟩⟩⟩)
  exact hreport.textDenotes

theorem describedBy_brief : Report.brief.DescribedBy (.map (briefMembers briefEntry)) := by
  have hentry : (Entry.success "add" (-1)).DescribedBy (.map briefEntry) := by
    refine ⟨briefEntry, rfl, ?_, ?_, ?_⟩ <;> simp [under, briefEntry]
  refine ⟨_, rfl, ?_, ?_, ?_, ?_, .inr ⟨[.map briefEntry], ?_, .cons hentry .nil⟩⟩ <;>
    simp [under, briefMembers, Report.brief]

theorem inFormat_brief : Report.InFormat (.map (briefMembers briefEntry)) := by
  refine ⟨_, rfl, fun items hitems => ?_⟩
  obtain rfl : [.map briefEntry] = items := by simpa [under, briefMembers] using hitems
  refine List.forall_mem_singleton.2 (Entry.inFormat_of_isSingle ?_)
  exact List.forall_mem_cons.2 ⟨trivial, List.forall_mem_cons.2 ⟨trivial,
    List.forall_mem_singleton.2 trivial⟩⟩

theorem inFormat_loose : Report.InFormat (.map (looseReport.map Member.pair)) := by
  refine ⟨_, rfl, fun items hitems => ?_⟩
  obtain rfl : [.map (looseEntry.map Member.pair)] = items := by
    simpa [under, looseReport, looseMember, Member.pair] using hitems
  refine List.forall_mem_singleton.2 (Entry.inFormat_of_isSingle ?_)
  exact List.forall_mem_cons.2 ⟨trivial, List.forall_mem_cons.2 ⟨trivial,
    List.forall_mem_cons.2 ⟨trivial, List.forall_mem_singleton.2 trivial⟩⟩⟩

theorem rearranged_loose : Report.Rearranged (.map (briefMembers briefEntry))
    (.map (looseReport.map Member.pair)) := by
  have hentry : Entry.Rearranged (.map briefEntry) (.map (looseEntry.map Member.pair)) := by
    have hperm : (looseEntry.map Member.pair).Perm (briefEntry ++ [("note", Datum.null)]) :=
      List.reverse_perm (briefEntry ++ [("note", Datum.null)])
    refine ⟨briefEntry, briefEntry, _, rfl, rfl, ?_, [("note", .null)], hperm, ?_⟩
    · exact List.forall₂_same.2 fun m _ => ⟨rfl, .inl rfl⟩
    · refine List.forall_mem_singleton.2 ?_
      rintro (h | ⟨kind, -, h⟩)
      · exact absurd h (by decide)
      · cases kind <;> exact absurd h (by decide)
  have hperm : (looseReport.map Member.pair).Perm
      (briefMembers (looseEntry.map Member.pair) ++ [("seen", Datum.bool true)]) :=
    List.reverse_perm
      (briefMembers (looseEntry.map Member.pair) ++ [("seen", Datum.bool true)])
  refine ⟨_, briefMembers (looseEntry.map Member.pair), _, rfl, rfl, ?_, [("seen", .bool true)],
    hperm, List.forall_mem_singleton.2 (by decide)⟩
  have hsame {m : String × Datum} : m.1 = m.1 ∧ (m.2 = m.2 ∨ m.1 = "entries" ∧
      ∃ items items', m.2 = .seq items ∧ m.2 = .seq items' ∧
        List.Forall₂ Entry.Rearranged items items') := ⟨rfl, .inl rfl⟩
  exact .cons hsame (.cons hsame (.cons hsame (.cons hsame
    (.cons ⟨rfl, .inr ⟨rfl, _, _, rfl, rfl, .cons hentry .nil⟩⟩ .nil))))

/-- The report is accepted in both forms. -/
theorem Report.accepts_format_brief :
    Report.ofText brief.toJson.render = .ok brief ∧ Report.ofText looseText = .ok brief := by
  obtain ⟨haccepts, hothers⟩ := Report.accepts_format textDenotes_brief inFormat_brief
  have hbrief := (haccepts brief).2 describedBy_brief
  have hloose := hothers looseText _ denotes_looseText inFormat_loose rearranged_loose brief
  exact ⟨hbrief, hloose.2 hbrief⟩

end FuzzLedger
