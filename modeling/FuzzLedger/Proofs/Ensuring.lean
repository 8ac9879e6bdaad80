import FuzzLedger.Proofs.Cascade
import FuzzLedger.Proofs.Content
import FuzzLedger.Proofs.Creation
import FuzzLedger.Proofs.Lifetime
import FuzzLedger.Proofs.OpcodeCache

/-!
# Asking for a row

Users, architectures, hosts and opcodes can be asked for by what is known of them (`Wanted`): the
row with the key is answered, and created if there is none.  Two of the operations insert first and
look up then, the other two the other way round; all keep to one contract.

* `Store.Oldest` — the row with a key that is answered: the one with the smallest identifier.  It
  stays that row when tables grow, because new rows have larger identifiers, and when something is
  deleted that does not reach it (`Oldest.growth`, `Oldest.without`).
* `action_of_oldest`, `action_of_mismatch`, `action_eq_creation` — what asking does, by whether
  there is such a row.
* `Holds.steps_of_sparing` — whatever happens to a session, the row stays the oldest one with its
  key as long as it is not deleted.
* `ensure_contract` — hence asking again gives the same row.
-/

set_option autoImplicit false

namespace FuzzLedger

/-! ## The oldest row with a key -/

namespace Store

variable {s t : Store} {e : Entity} {key : Row e → Prop} {r : Row e}

/-- Of the rows with a key, this one has the smallest identifier. -/
structure Oldest (s : Store) (key : Row e → Prop) (r : Row e) : Prop where
  mem : r ∈ s.rows e
  has_key : key r
  id_le : ∀ q ∈ s.rows e, key q → Row.id e r ≤ Row.id e q

theorem Oldest.unique (hs : s.Coherent) {q : Row e} (hr : s.Oldest key r) (hq : s.Oldest key q) :
    r = q := by
  have hle := hr.id_le q hq.mem hq.has_key
  have hge := hq.id_le r hr.mem hr.has_key
  exact (hs.ascending e).eq_of_id_eq hr.mem hq.mem (by omega)

/-- Only the rows of the table matter. -/
theorem Oldest.congr (h : s.Oldest key r) (hrows : t.rows e = s.rows e) : t.Oldest key r := by
  refine ⟨?_, h.has_key, fun q hq => h.id_le q ?_⟩
  · rw [hrows]; exact h.mem
  · rw [← hrows]; exact hq

/-- Tables are kept by identifier, so the first row with a key is the oldest one. -/
theorem Coherent.oldest_of_find? (h : s.Coherent) {p : Row e → Bool}
    (hfind : (s.rows e).find? p = some r) : s.Oldest (fun q => p q = true) r := by
  have hascending := h.ascending e
  refine ⟨List.mem_of_find?_eq_some hfind, List.find?_some hfind, fun q hq hkey => ?_⟩
  obtain ⟨-, before, after, hrows, hbefore⟩ := List.find?_eq_some_iff_append.1 hfind
  rw [hrows] at hq hascending
  rcases List.mem_append.1 hq with hq | hq
  · have hnot := hbefore q hq
    rw [hkey] at hnot
    cases hnot
  · rcases List.mem_cons.1 hq with rfl | hq
    · exact Int.le_refl _
    · have htail := (List.pairwise_append.1 hascending).2.1
      exact Int.le_of_lt (List.rel_of_pairwise_cons htail hq)

theorem Coherent.exists_oldest (h : s.Coherent) {q : Row e} (hq : q ∈ s.rows e) (hkey : key q) :
    ∃ r, s.Oldest key r := by
  classical
  cases hfind : (s.rows e).find? fun r => decide (key r) with
  | none =>
    have hnone := List.find?_eq_none.1 hfind q hq
    exact absurd (decide_eq_true hkey) hnone
  | some r =>
    have holdest := h.oldest_of_find? hfind
    simp only [decide_eq_true_eq] at holdest
    exact ⟨r, holdest⟩

/-- **A row that was added later is not older.** -/
theorem Oldest.growth (h : s.Oldest key r) (hs : s.Coherent) (hgrowth : Growth Regular s t) :
    t.Oldest key r := by
  refine ⟨hgrowth.mem h.mem, h.has_key, fun q hq hkey => ?_⟩
  cases hgrowth with
  | @add f new _ hregular =>
    rcases mem_rows_add.1 hq with hq | hq
    · exact h.id_le q hq hkey
    · cases hq
      have hid := (nextId?_eq_some_iff.1 hregular.1).2
      have hle := hs.id_le_last e r h.mem
      omega
  | spend _ =>
    rw [rows_spendId] at hq
    exact h.id_le q hq hkey

/-- A deletion that does not reach the row leaves it in its place. -/
theorem Oldest.without (h : s.Oldest key r) (hs : s.Coherent) {target : RowRef}
    (hspared : ¬ s.Reaches target (e, Row.id e r)) : (s.without target).Oldest key r := by
  classical
  refine ⟨?_, h.has_key, fun q hq => h.id_le q (mem_rows_without.1 hq).1⟩
  rw [hs.rows_without, List.mem_filter]
  exact ⟨h.mem, decide_eq_true hspared⟩

/-- The row is the oldest one with its key, in tables that are sound. -/
structure Standing (s : Store) (key : Row e → Prop) (r : Row e) : Prop extends Oldest s key r where
  sound : s.Sound

theorem Standing.growth (h : s.Standing key r) (hgrowth : Growth Regular s t) :
    t.Standing key r :=
  ⟨h.toOldest.growth h.sound.coherent hgrowth, h.sound.growth hgrowth⟩

theorem Standing.without (h : s.Standing key r) {target : RowRef} (hhas : s.has target = true)
    (hspared : ¬ s.Reaches target (e, Row.id e r)) : (s.without target).Standing key r :=
  ⟨h.toOldest.without h.sound.coherent hspared, h.sound.change (.remove hhas)⟩

end Store

/-! ## What can be asked for -/

/-- What a row is asked for by: its name, and for hosts and opcodes the architecture. -/
inductive Wanted where
  | user (username : String)
  | arch (name : String)
  | host (hostname : String) (archId : Int)
  | opcode (name : String) (archId : Int)

namespace Wanted

/-- The kind of the row. -/
def kind : Wanted → Entity
  | .user _ => .user
  | .arch _ => .arch
  | .host .. => .host
  | .opcode .. => .opcode

/-- A row that may be meant.  A host is meant by its name alone. -/
def Key : (w : Wanted) → Row w.kind → Prop
  | .user username, r => User.username r = .text username
  | .arch name, r => Arch.name r = .text name
  | .host hostname _, r => Host.hostname r = .text hostname
  | .opcode name archId, r => Opcode.archId r = archId ∧ Opcode.name r = .text name

/-- Why a row is not answered although it is meant: a host does not change its architecture. -/
def mismatch? : (w : Wanted) → Row w.kind → Option Fault
  | .user _, _ => none
  | .arch _, _ => none
  | .host hostname archId, r =>
    if Host.archId r = archId then none
    else some (.hostArchMismatch hostname (Host.archId r) archId)
  | .opcode .., _ => none

/-- The row as it was asked for, under an identifier. -/
def item : (w : Wanted) → Int → Item w.kind
  | .user username, id => (⟨id, username⟩ : User)
  | .arch name, id => (⟨id, name⟩ : Arch)
  | .host hostname archId, id => (⟨id, hostname, archId⟩ : Host)
  | .opcode name archId, id => (⟨id, name, archId⟩ : Opcode)

/-- Asking for the row, on the tables. -/
def action : (w : Wanted) → Action (Item w.kind)
  | .user username => Action.ensureUser username
  | .arch name => Action.ensureArch name
  | .host hostname archId => Action.ensureHost hostname archId
  | .opcode name archId => Action.ensureOpcode name archId

/-- Creating the row, on the tables. -/
def creation : (w : Wanted) → Action (Item w.kind)
  | .user username => Action.createUser username
  | .arch name => Action.createArch name
  | .host hostname archId => Action.createHost hostname archId
  | .opcode name archId => Action.createOpcode name archId

/-- Asking for the row, on a session. -/
def ensure : (w : Wanted) → Call (Item w.kind)
  | .user username => Session.ensureUser username
  | .arch name => Session.ensureArch name
  | .host hostname archId => Session.ensureHost hostname archId
  | .opcode name archId => Session.ensureOpcode name archId

/-- Creating the row, on a session. -/
def create : (w : Wanted) → Call (Item w.kind)
  | .user username => Session.createUser username
  | .arch name => Session.createArch name
  | .host hostname archId => Session.createHost hostname archId
  | .opcode name archId => Session.createOpcode name archId

end Wanted

/-! ## Asking, on the tables -/

namespace Action

variable {α : Type} {s : Store} {e : Entity} {build : Int → Row e} {give : Int → α}
  {field name : String} {limit : Nat}

theorem checkLength_bind_of_le {f : Unit → Action α} (hle : name.length ≤ limit) (s : Store) :
    (checkLength field name limit >>= f) s = f () s := by
  rw [checkLength, Limit.check_eq_ok_iff.2 hle]
  rfl

theorem checkLength_bind_congr {f g : Unit → Action α}
    (h : name.length ≤ limit → f () s = g () s) :
    (checkLength field name limit >>= f) s = (checkLength field name limit >>= g) s := by
  by_cases hle : name.length ≤ limit
  · rw [checkLength_bind_of_le hle, checkLength_bind_of_le hle, h hle]
  · rw [checkLength, Limit.check_eq_error (by omega)]
    rfl

/-- Adding a row unless its name exists, for a name that does: its length has been checked once. -/
theorem checked_ensureNamed_of_known {r : Row e} {id : Int} (h : s.Sound)
    (hid : ∀ id, Row.id e (build id) = id)
    (hname : ∀ id, Row.uniqueName? e (build id) = some (.text name))
    (htexts : ∀ id, Row.boundedTexts e (build id) = [⟨field, limit, .text name⟩])
    (hfits : name.length ≤ limit) (hr : r ∈ s.rows e)
    (hrname : Row.uniqueName? e r = some (.text name)) (hnext : s.nextId? e = some id) :
    (checkLength field name limit >>= fun _ => insertIfNewName e build >>= fun _ =>
      findNamed e name >>= fun id => pure (give id)) s =
      .ok (give (Row.id e r)) (s.spendId e id) := by
  rw [checkLength_bind_of_le hfits]
  have hfind := h.coherent.findNamed?_eq_some_iff.2 ⟨hr, hrname⟩
  refine ensureNamed_of_known h.coherent (hid id) (hname id) (fun b hb => ?_) hnext hfind
  rw [htexts, List.mem_singleton] at hb
  rw [hb]
  exact TextCell.fits_text.2 hfits

/-- Adding a row unless its name exists, for a name that does not, is adding a row. -/
theorem checked_ensureNamed_of_new (h : s.Coherent) (hid : ∀ id, Row.id e (build id) = id)
    (hname : ∀ id, Row.uniqueName? e (build id) = some (.text name))
    (htexts : ∀ id, Row.boundedTexts e (build id) = [⟨field, limit, .text name⟩])
    (hrefs : ∀ id, Row.references e (build id) = [])
    (hnone : ∀ q ∈ s.rows e, Row.uniqueName? e q ≠ some (.text name))
    (hnext : s.nextId? e ≠ none) :
    (checkLength field name limit >>= fun _ => insertIfNewName e build >>= fun _ =>
      findNamed e name >>= fun id => pure (give id)) s =
    (checkLength field name limit >>= fun _ => insertNew e build >>= fun r =>
      pure (give (Row.id e r))) s := by
  obtain ⟨id, hnext⟩ := Option.ne_none_iff_exists'.1 hnext
  refine checkLength_bind_congr fun hle => ?_
  have hfits : ∀ b ∈ Row.boundedTexts e (build id), b.text.Fits b.limit := fun b hb => by
    rw [htexts, List.mem_singleton] at hb
    rw [hb]
    exact TextCell.fits_text.2 hle
  obtain ⟨hok, hadded⟩ := ensureNamed_of_new h (hid id) (hname id) hfits (hrefs id) hnext hnone
  rw [hadded]
  simp only [Bind.bind, EStateM.bind, insertNew_eq, hnext, hok, hid]
  rfl

theorem ensureHost_eq (hostname : String) (archId : Int) (s : Store) :
    ensureHost hostname archId s =
      match s.hosts.findNamed? hostname with
      | some host =>
        if host.archId = archId then .ok ⟨host.id, hostname, archId⟩ s
        else .error ⟨.hostArchMismatch hostname host.archId archId, []⟩ s
      | none => createHost hostname archId s := by
  have hget : (get : Action Store) s = .ok s s := rfl
  simp only [ensureHost, Bind.bind, EStateM.bind, hget, Store.findHost?_eq]
  cases s.hosts.findNamed? hostname with
  | none => rfl
  | some host =>
    by_cases hon : host.archId = archId <;>
      simp only [Option.map_some, hon, if_true, if_false] <;> rfl

end Action

namespace Wanted

variable {w : Wanted} {s t : Store} {r : Row w.kind}

theorem mismatch?_host_eq_none_iff {hostname : String} {archId : Int} {r : Host TextCell} :
    mismatch? (.host hostname archId) r = none ↔ r.archId = archId := by
  unfold mismatch?
  split <;> simp_all

theorem mismatch?_host_eq_some_iff {hostname : String} {archId : Int} {r : Host TextCell}
    {fault : Fault} :
    mismatch? (.host hostname archId) r = some fault ↔
      r.archId ≠ archId ∧ .hostArchMismatch hostname r.archId archId = fault := by
  unfold mismatch?
  split <;> simp_all

@[simp] theorem id_item (w : Wanted) (id : Int) : Item.id w.kind (w.item id) = id := by
  cases w <;> rfl

/-- A row that is meant and answered is read as it was asked for. -/
theorem read_of_key (hkey : w.Key r) (hmatch : w.mismatch? r = none) :
    Row.read w.kind r = .ok (w.item (Row.id w.kind r)) := by
  cases w with
  | user username =>
    obtain ⟨id, cell⟩ := r
    cases hkey
    rfl
  | arch name =>
    obtain ⟨id, cell⟩ := r
    cases hkey
    rfl
  | host hostname archId =>
    obtain ⟨id, cell, archId'⟩ := r
    cases hkey
    cases mismatch?_host_eq_none_iff.1 hmatch
    rfl
  | opcode name archId =>
    obtain ⟨id, cell, archId'⟩ := r
    obtain ⟨rfl, rfl⟩ := hkey
    rfl

/-- The oldest host of a name is the one that is found by it. -/
theorem findNamed?_of_oldest (h : s.Coherent) {hostname : String} {archId : Int}
    {r : Host TextCell} (hr : s.Oldest (Key (.host hostname archId)) r) :
    s.hosts.findNamed? hostname = some r :=
  h.findNamed?_eq_some_iff (e := .host).2 ⟨hr.mem, congrArg some hr.has_key⟩

theorem firstOpcode?_of_oldest (h : s.Coherent) {name : String} {archId : Int}
    {r : Opcode TextCell} (hr : s.Oldest (Key (.opcode name archId)) r) :
    s.firstOpcode? archId name = some r := by
  cases hfirst : s.firstOpcode? archId name with
  | none =>
    have hnone := List.find?_eq_none.1 hfirst r hr.mem
    simp only [Bool.and_eq_true, beq_iff_eq] at hnone
    exact absurd hr.has_key hnone
  | some o =>
    have ho := h.oldest_of_find? (e := .opcode) hfirst
    simp only [Bool.and_eq_true, beq_iff_eq] at ho
    rw [hr.unique h ho]

/-- **A row that is there is answered**, and the rows stay as they are. -/
theorem action_of_oldest (h : s.Sound) (hr : s.Oldest w.Key r) (hmatch : w.mismatch? r = none)
    (hnext : s.nextId? w.kind ≠ none) :
    ∃ t, w.action s = .ok (w.item (Row.id w.kind r)) t ∧ ∀ e, t.rows e = s.rows e := by
  -- users and architectures spend this identifier although nothing is added
  obtain ⟨id, hnext⟩ := Option.ne_none_iff_exists'.1 hnext
  cases w with
  | user username =>
    have hkey : User.username r = .text username := hr.has_key
    have hfits : (User.username r).Fits _ :=
      (h.tidy.proper .user r hr.mem).fits _ List.mem_cons_self
    rw [hkey, TextCell.fits_text] at hfits
    exact ⟨_, Action.checked_ensureNamed_of_known h (fun _ => rfl) (fun _ => rfl) (fun _ => rfl)
      hfits hr.mem (congrArg some hkey) hnext, fun e => Store.rows_spendId id⟩
  | arch name =>
    have hkey : Arch.name r = .text name := hr.has_key
    have hfits : (Arch.name r).Fits _ :=
      (h.tidy.proper .arch r hr.mem).fits _ List.mem_cons_self
    rw [hkey, TextCell.fits_text] at hfits
    exact ⟨_, Action.checked_ensureNamed_of_known h (fun _ => rfl) (fun _ => rfl) (fun _ => rfl)
      hfits hr.mem (congrArg some hkey) hnext, fun e => Store.rows_spendId id⟩
  | host hostname archId =>
    have hon : Host.archId r = archId := mismatch?_host_eq_none_iff.1 hmatch
    refine ⟨s, ?_, fun _ => rfl⟩
    show Action.ensureHost hostname archId s = _
    rw [Action.ensureHost_eq, findNamed?_of_oldest h.coherent hr]
    exact if_pos hon
  | opcode name archId =>
    refine ⟨s, ?_, fun _ => rfl⟩
    show Action.ensureOpcode name archId s = _
    rw [Action.ensureOpcode_eq, firstOpcode?_of_oldest h.coherent hr]
    rfl

/-- A host on another architecture is refused. -/
theorem action_of_mismatch (h : s.Coherent) (hr : s.Oldest w.Key r) {fault : Fault}
    (hfault : w.mismatch? r = some fault) : w.action s = .error ⟨fault, []⟩ s := by
  cases w with
  | host hostname archId =>
    obtain ⟨hoff, rfl⟩ := mismatch?_host_eq_some_iff.1 hfault
    show Action.ensureHost hostname archId s = _
    rw [Action.ensureHost_eq, findNamed?_of_oldest h hr]
    exact if_neg hoff
  | user username => cases hfault
  | arch name => cases hfault
  | opcode name archId => cases hfault

theorem ne_full_of_mismatch {fault : Fault} (hfault : w.mismatch? r = some fault) :
    fault ≠ .engine .full := by
  cases w with
  | host hostname archId =>
    rw [← (mismatch?_host_eq_some_iff.1 hfault).2]
    simp
  | user username => cases hfault
  | arch name => cases hfault
  | opcode name archId => cases hfault

/-- **Where there is no such row, asking is creating.** -/
theorem action_eq_creation (h : s.Coherent) (hnone : ∀ q ∈ s.rows w.kind, ¬ w.Key q)
    (hnext : s.nextId? w.kind ≠ none) : w.action s = w.creation s := by
  cases w with
  | user username =>
    exact Action.checked_ensureNamed_of_new h (fun _ => rfl) (fun _ => rfl) (fun _ => rfl)
      (fun _ => rfl) (fun q hq hname => hnone q hq (Option.some.inj hname)) hnext
  | arch name =>
    exact Action.checked_ensureNamed_of_new h (fun _ => rfl) (fun _ => rfl) (fun _ => rfl)
      (fun _ => rfl) (fun q hq hname => hnone q hq (Option.some.inj hname)) hnext
  | host hostname archId =>
    have hfind : s.hosts.findNamed? hostname = none :=
      Store.findNamed?_eq_none_iff (e := .host).2 fun q hq hname =>
        hnone q hq (Option.some.inj hname)
    show Action.ensureHost hostname archId s = Action.createHost hostname archId s
    rw [Action.ensureHost_eq, hfind]
  | opcode name archId =>
    have hfirst : s.firstOpcode? archId name = none := by
      refine List.find?_eq_none.2 fun q hq => ?_
      simp only [Bool.and_eq_true, beq_iff_eq]
      exact hnone q hq
    show Action.ensureOpcode name archId s = Action.createOpcode name archId s
    rw [Action.ensureOpcode_eq, hfirst]

/-- A row that was created is one that was meant, and is answered. -/
theorem appended_of_creation {x : Item w.kind} (h : s.Coherent) (hok : w.creation s = .ok x t) :
    ∃ r, Store.Appended w.kind s t r ∧ w.Key r ∧ w.mismatch? r = none ∧
      x = w.item (Row.id w.kind r) := by
  cases w with
  | user username =>
    obtain ⟨-, hok⟩ := Action.checkLength_bind_eq_ok hok
    obtain ⟨r, _, hinsert, hret⟩ := bind_eq_ok hok
    cases hret
    obtain ⟨happ, hbuild⟩ := Action.insertNew_ok (fun _ => rfl) h hinsert
    exact ⟨r, happ, congrArg User.username hbuild, rfl, rfl⟩
  | arch name =>
    obtain ⟨-, hok⟩ := Action.checkLength_bind_eq_ok hok
    obtain ⟨r, _, hinsert, hret⟩ := bind_eq_ok hok
    cases hret
    obtain ⟨happ, hbuild⟩ := Action.insertNew_ok (fun _ => rfl) h hinsert
    exact ⟨r, happ, congrArg Arch.name hbuild, rfl, rfl⟩
  | host hostname archId =>
    obtain ⟨-, hok⟩ := Action.checkLength_bind_eq_ok hok
    obtain ⟨r, _, hinsert, hret⟩ := bind_eq_ok hok
    cases hret
    obtain ⟨happ, hbuild⟩ := Action.insertNew_ok (fun _ => rfl) h hinsert
    exact ⟨r, happ, congrArg Host.hostname hbuild, if_pos (congrArg Host.archId hbuild), rfl⟩
  | opcode name archId =>
    obtain ⟨-, hok⟩ := Action.checkLength_bind_eq_ok hok
    obtain ⟨r, _, hinsert, hret⟩ := bind_eq_ok hok
    cases hret
    obtain ⟨happ, hbuild⟩ := Action.insertNew_ok (fun _ => rfl) h hinsert
    exact ⟨r, happ, ⟨congrArg Opcode.archId hbuild, congrArg Opcode.name hbuild⟩, rfl, rfl⟩

theorem grows_action (w : Wanted) : Action.Grows w.action := by
  cases w with
  | user username => exact (Action.grows_ensureUser username).grows
  | arch name => exact (Action.grows_ensureArch name).grows
  | host hostname archId => exact (Action.grows_ensureHost hostname archId).grows
  | opcode name archId => exact (Action.grows_ensureOpcode name archId).grows

/-- **Whatever was answered is the oldest row that is meant.** -/
theorem standing_of_action {x : Item w.kind} (h : s.Sound) (hnext : s.nextId? w.kind ≠ none)
    (hok : w.action s = .ok x t) :
    ∃ r, t.Standing w.Key r ∧ w.mismatch? r = none ∧ x = w.item (Row.id w.kind r) := by
  have hsound : t.Sound :=
    Session.keeps_of_ok (fun _ _ hgrowth hs => Store.Sound.growth hs hgrowth) w.grows_action hok h
  by_cases hknown : ∃ q ∈ s.rows w.kind, w.Key q
  · obtain ⟨q, hq, hkey⟩ := hknown
    obtain ⟨q, hq⟩ := h.coherent.exists_oldest hq hkey
    cases hmatch : w.mismatch? q with
    | some fault =>
      rw [action_of_mismatch h.coherent hq hmatch] at hok
      cases hok
    | none =>
      obtain ⟨u, hu, hrows⟩ := action_of_oldest h hq hmatch hnext
      rw [hu] at hok
      cases hok
      exact ⟨q, ⟨hq.congr (hrows w.kind), hsound⟩, hmatch, rfl⟩
  · push Not at hknown
    rw [action_eq_creation h.coherent hknown hnext] at hok
    obtain ⟨r, happ, hkey, hmatch, hx⟩ := appended_of_creation h.coherent hok
    refine ⟨r, ⟨⟨happ.mem_self, hkey, fun q hq hqkey => ?_⟩, hsound⟩, hmatch, hx⟩
    rw [happ.rows_eq] at hq
    rcases List.mem_append.1 hq with hq | hq
    · exact absurd hqkey (hknown q hq)
    · rw [List.mem_singleton.1 hq]

end Wanted

/-! ## Asking, on a session -/

namespace Session

variable {s : Session} {store store' : Store} {w : Wanted} {x : Item w.kind}

theorem ensure_of_ok (htables : s.image.tables = some store)
    (h : w.action store = .ok x store') : w.ensure s = .ok x (s.withTables store') := by
  cases w <;> exact write_of_ok htables h

theorem ensure_of_error {f : Failure} (htables : s.image.tables = some store)
    (h : w.action store = .error f store) (hfull : f.fault ≠ .engine .full) :
    w.ensure s = .error f s := by
  cases w <;> exact write_of_error htables h hfull

theorem ensure_eq_create (htables : s.image.tables = some store)
    (h : w.action store = w.creation store) : w.ensure s = w.create s := by
  cases w <;> exact write_congr htables h

theorem action_of_ensure {s' : Session} (htables : s.image.tables = some store)
    (h : w.ensure s = .ok x s') : ∃ store', w.action store = .ok x store' := by
  cases w <;> exact (write_eq_ok htables h).imp fun _ hstore => hstore.1

theorem ensure_eq_ok {s' : Session} (htables : s.image.tables = some store)
    (h : w.ensure s = .ok x s') :
    ∃ store', w.action store = .ok x store' ∧ s' = s.withTables store' := by
  obtain ⟨store', haction⟩ := action_of_ensure htables h
  rw [ensure_of_ok htables haction] at h
  cases h
  exact ⟨store', haction, rfl⟩

end Session

/-! ## A row that is spared -/

/-- The event does not delete the row, neither by itself nor with one that it depends on; it does
not write past the operations, and does not lose the ledger. -/
def Event.Spares (ref : RowRef) (s : Session) : Event → Prop
  | .request (.delete e id) =>
    ∀ store, s.image.tables = some store → ¬ store.Reaches (e, id) ref
  | .insert .. => False
  | .reopen inMemory => inMemory = false
  | _ => True

namespace Session

/-- Every event of the run spares the row, when its turn comes. -/
def Sparing (ref : RowRef) : Session → List Event → Prop
  | _, [] => True
  | s, event :: run => event.Spares ref s ∧ Sparing ref (s.step event) run

variable {s : Session} {store : Store} {e : Entity} {key : Row e → Prop} {r : Row e}

theorem Holds.after_delete_sparing (h : s.Holds (·.Standing key r)) {f : Entity} {id : Int}
    (hspared : ∀ store, s.image.tables = some store → ¬ store.Reaches (f, id) (e, Row.id e r)) :
    (s.after (.delete f id)).Holds (·.Standing key r) := by
  obtain ⟨⟨hversion, store, htables, hstore⟩, hsaved⟩ := h
  rw [after_eq, perform, finalState_map]
  by_cases hhas : store.has (f, id) = true
  · have haction : Action.delete f id store = .ok true (store.without (f, id)) := by
      rw [Action.delete_eq, if_pos hhas]
    rw [delete, write_of_ok htables haction]
    exact ⟨⟨hversion, _, rfl, hstore.without hhas (hspared store htables)⟩, hsaved⟩
  · have haction : Action.delete f id store = .ok false store := by
      rw [Action.delete_eq, if_neg hhas]
    rw [delete, write_of_ok htables haction]
    exact ⟨⟨hversion, store, rfl, hstore⟩, hsaved⟩

theorem Holds.after_sparing (h : s.Holds (·.Standing key r)) {request : Request}
    (hspares : (Event.request request).Spares (e, Row.id e r) s) :
    (s.after request).Holds (·.Standing key r) := by
  cases hkind : request.kind? with
  | some f => exact h.after_of_kind? hkind fun _ _ hgrowth hstore => hstore.growth hgrowth.growth
  | none =>
    cases request with
    | record now report =>
      refine h.after_record fun m store store' hok hstore => ?_
      exact keeps_of_ok (fun _ _ hgrowth (hs : Store.Standing _ key r) => hs.growth hgrowth)
        (Action.grows_recordReport now report) hok hstore
    | delete f id => exact h.after_delete_sparing hspares
    | _ => cases hkind

/-- **An event that spares the row leaves it in its place**, also in the image to which an open
transaction would return. -/
theorem Holds.step_of_spares (h : s.Holds (·.Standing key r)) {event : Event}
    (hspares : event.Spares (e, Row.id e r) s) : (s.step event).Holds (·.Standing key r) := by
  cases event with
  | request request => exact h.after_sparing hspares
  | insert now f cells => cases hspares
  | startTransaction => exact h.startTransaction
  | commit => exact h.commit
  | rollback => exact h.rollback
  | reopen inMemory =>
    have hfile : inMemory = false := hspares
    subst hfile
    exact h.reopen_file

theorem Holds.steps_of_sparing {run : List Event} (h : s.Holds (·.Standing key r))
    (hsparing : s.Sparing (e, Row.id e r) run) : (s.steps run).Holds (·.Standing key r) := by
  induction run generalizing s with
  | nil => exact h
  | cons event run ih => exact ih (h.step_of_spares hsparing.1) hsparing.2

/-- A row that stands is answered. -/
theorem ensure_of_standing {w : Wanted} {r : Row w.kind} (htables : s.image.tables = some store)
    (hr : store.Standing w.Key r) (hmatch : w.mismatch? r = none)
    (hnext : store.nextId? w.kind ≠ none) :
    ∃ store', w.ensure s = .ok (w.item (Row.id w.kind r)) (s.withTables store') ∧
      ∀ e, store'.rows e = store.rows e := by
  obtain ⟨store', hok, hrows⟩ := Wanted.action_of_oldest hr.sound hr.toOldest hmatch hnext
  exact ⟨store', ensure_of_ok htables hok, hrows⟩

/-- **Asking for a row.**  Take the tables after any run that wrote nothing past the operations,
with an identifier left for the row.

* If rows have the key, then the oldest of them is answered and all rows stay as they are; but a
  host on another architecture is refused for that, and nothing changes.
* If none has it, asking does what creating does.
* Outside a transaction, a row that was answered is answered again after any further events that
  spare it, and again all rows stay as they are, as long as an identifier is left. -/
theorem ensure_contract {run : List Event} (hrun : ∀ event ∈ run, event.isDirect = false)
    (w : Wanted) {store : Store} (htables : (fresh.steps run).image.tables = some store)
    (hnext : store.nextId? w.kind ≠ none) :
    (∀ q ∈ store.rows w.kind, w.Key q → ∃ r, store.Oldest w.Key r ∧
      (w.mismatch? r = none → ∃ x store', Row.read w.kind r = .ok x ∧
        w.ensure (fresh.steps run) = .ok x ((fresh.steps run).withTables store') ∧
        ∀ e, store'.rows e = store.rows e) ∧
      ∀ fault, w.mismatch? r = some fault →
        w.ensure (fresh.steps run) = .error ⟨fault, []⟩ (fresh.steps run)) ∧
    ((∀ q ∈ store.rows w.kind, ¬ w.Key q) →
      w.ensure (fresh.steps run) = w.create (fresh.steps run)) ∧
    ((fresh.steps run).saved = none →
      ∀ x s', w.ensure (fresh.steps run) = .ok x s' →
        ∀ more, s'.Sparing (w.kind, Item.id w.kind x) more →
          ∃ later, (s'.steps more).image.tables = some later ∧
            (later.nextId? w.kind ≠ none → ∃ store',
              w.ensure (s'.steps more) = .ok x ((s'.steps more).withTables store') ∧
              ∀ e, store'.rows e = later.rows e)) := by
  have hsound := sound_steps hrun htables
  have hversion := (coherent_steps run).image.1
  refine ⟨fun q hq hkey => ?_, fun hnone => ?_, fun hsaved x s' hok more hsparing => ?_⟩
  · obtain ⟨r, hr⟩ := hsound.coherent.exists_oldest hq hkey
    refine ⟨r, hr, fun hmatch => ?_, fun fault hfault => ?_⟩
    · exact ⟨_, (ensure_of_standing htables ⟨hr, hsound⟩ hmatch hnext).imp fun _ hstore =>
        ⟨Wanted.read_of_key hr.has_key hmatch, hstore⟩⟩
    · refine ensure_of_error htables (Wanted.action_of_mismatch hsound.coherent hr hfault) ?_
      exact Wanted.ne_full_of_mismatch hfault
  · exact ensure_eq_create htables (Wanted.action_eq_creation hsound.coherent hnone hnext)
  · obtain ⟨store', haction, rfl⟩ := ensure_eq_ok htables hok
    obtain ⟨r, hstanding, hmatch, rfl⟩ := Wanted.standing_of_action hsound hnext haction
    rw [Wanted.id_item] at hsparing
    -- no transaction is open, so there is no image without the row to return to
    have hstart : ((fresh.steps run).withTables store').Holds (·.Standing w.Key r) :=
      ⟨⟨hversion, store', rfl, hstanding⟩, fun im him => by
        rw [show ((fresh.steps run).withTables store').saved = none from hsaved] at him
        cases him⟩
    obtain ⟨-, later, hlater, hstands⟩ := (hstart.steps_of_sparing hsparing).image
    exact ⟨later, hlater, ensure_of_standing hlater hstands hmatch⟩

/-- A second opcode of the same name is created, and a batch is deleted. -/
def namesake : List Event := [.request (.createOpcode "add" 1), .request (.delete .batch 1)]

/-- After a report was recorded, its host is refused on another architecture, a new user is created,
and the opcode of the report is answered, also when it has a namesake. -/
theorem ensure_next_to_namesake :
    ensureHost "tester" 9 (fresh.steps recordedRun) =
      .error ⟨.hostArchMismatch "tester" 1 9, []⟩ (fresh.steps recordedRun) ∧
    ensureUser "other" (fresh.steps recordedRun) = createUser "other" (fresh.steps recordedRun) ∧
    ∃ s' later store', ensureOpcode "add" 1 (fresh.steps recordedRun) = .ok ⟨1, "add", 1⟩ s' ∧
      (s'.steps namesake).image.tables = some later ∧
      ensureOpcode "add" 1 (s'.steps namesake) =
        .ok ⟨1, "add", 1⟩ ((s'.steps namesake).withTables store') ∧
      ∀ e, store'.rows e = later.rows e := by
  obtain ⟨store, htables, husers, hhosts, hnexts⟩ : ∃ store,
      (fresh.steps recordedRun).image.tables = some store ∧
      store.users.rows = [⟨1, "user"⟩] ∧ store.hosts.rows = [⟨1, "tester", 1⟩] ∧
      ∀ e ∈ Entity.all, store.nextId? e ≠ none := ⟨_, rfl, by decide +kernel⟩
  have hrun : ∀ event ∈ recordedRun, event.isDirect = false := by decide
  have hnext (e : Entity) : store.nextId? e ≠ none := hnexts e (Entity.mem_all e)
  have hhost : (⟨1, "tester", 1⟩ : Host TextCell) ∈ store.hosts.rows := by simp [hhosts]
  refine ⟨?_, ?_, ?_⟩
  · obtain ⟨r, hr, -, hmismatch⟩ :=
      (ensure_contract hrun (.host "tester" 9) htables (hnext _)).1 _ hhost rfl
    have hsame : r = ⟨1, "tester", 1⟩ := List.mem_singleton.1 (hhosts ▸ hr.mem)
    subst hsame
    exact hmismatch _ rfl
  · refine (ensure_contract hrun (.user "other") htables (hnext _)).2.1 fun q hq hname => ?_
    rw [show q = ⟨1, "user"⟩ from List.mem_singleton.1 (husers ▸ hq)] at hname
    exact absurd (TextCell.text.inj hname) (by decide)
  · obtain ⟨s', hok, hlater⟩ : ∃ s', ensureOpcode "add" 1 (fresh.steps recordedRun) =
        .ok ⟨1, "add", 1⟩ s' ∧
        (s'.steps namesake).image.tables.all (fun later => (later.nextId? .opcode).isSome) = true :=
      ⟨_, rfl, by decide +kernel⟩
    -- a batch does not lead to an opcode
    have hspared : s'.Sparing (.opcode, 1) namesake := by
      refine ⟨trivial, fun t _ hreach => ?_, trivial⟩
      rcases hreach.rank_lt with heq | hlt
      · cases heq
      · exact absurd hlt (by decide)
    obtain ⟨later, hthen, hagain⟩ :=
      (ensure_contract hrun (.opcode "add" 1) htables (hnext _)).2.2 (by decide +kernel) _ s' hok
        namesake hspared
    rw [hthen, Option.all_some] at hlater
    obtain ⟨store', hanswer, hrows⟩ := hagain (Option.isSome_iff_ne_none.1 hlater)
    exact ⟨s', later, store', hok, hthen, hanswer, hrows⟩

end Session

end FuzzLedger
