import FuzzLedger.Proofs.Recording
import FuzzLedger.Proofs.Run

/-!
# Contracts of the recording operations

`Action.Meets` says all that can be said of an action on a store in advance:

* the offences that it will come to, in order: it fails with the first of them;
* the identifiers that it will take from each sequence: if they are there and there is no offence,
  it succeeds;
* what it leaves when it succeeds.

Contracts compose (`Meets.bind`): offences are appended, identifiers are added.  So the contract of
a whole recording comes out of those of its statements, of which there is one each in this module.
-/

set_option autoImplicit false

namespace FuzzLedger

/-! ## Identifiers left -/

namespace Store

variable {s t : Store} {need need' : Entity → Nat}

/-- The sequence of each table has so many identifiers left. -/
def HasRoom (s : Store) (need : Entity → Nat) : Prop := ∀ e, (s.table e).last + need e ≤ maxId

/-- What has become of a store after so many identifiers were taken. -/
def Took (s t : Store) (need : Entity → Nat) : Prop :=
  ∀ e, (t.table e).last = (s.table e).last + need e

theorem HasRoom.mono (h : s.HasRoom need) (hle : ∀ e, need' e ≤ need e) : s.HasRoom need' := by
  intro e
  have := h e
  have := hle e
  omega

theorem HasRoom.left (h : s.HasRoom (need + need')) : s.HasRoom need :=
  h.mono fun e => Nat.le_add_right (need e) (need' e)

theorem HasRoom.right (h : s.HasRoom (need + need')) (ht : s.Took t need) : t.HasRoom need' := by
  intro e
  have := h e
  rw [Pi.add_apply] at this
  rw [ht e]
  omega

theorem Took.trans {u : Store} (h : s.Took t need) (h' : t.Took u need') :
    s.Took u (need + need') := by
  intro e
  rw [h' e, h e, Pi.add_apply]
  omega

/-- Stores as the writing operations keep them. -/
structure Sound (s : Store) : Prop where
  coherent : s.Coherent
  tidy : s.Tidy

theorem Sound.empty : Sound .empty := ⟨.empty, .empty⟩

theorem Sound.growth (h : s.Sound) (hgrowth : Growth Regular s t) : t.Sound :=
  ⟨h.coherent.growth hgrowth, h.tidy.growth hgrowth⟩

theorem Sound.change (h : s.Sound) (hchange : Change s t) : t.Sound :=
  ⟨h.coherent.change hchange, h.tidy.change hchange⟩

end Store

/-! ## Contracts -/

namespace Action

variable {α β : Type} {s : Store} {offences offences' : List Failure} {need need' : Entity → Nat}
  {Q Q' : α → Store → Prop} {a : Action α}

/-- On the given store the action fails with the first offence, or else it takes the identifiers
that it needs and leaves what is described.  Without them it may fail in any way. -/
def Meets (s : Store) (offences : List Failure) (need : Entity → Nat) (Q : α → Store → Prop)
    (a : Action α) : Prop :=
  match a s with
  | .ok x t => offences = [] ∧ s.Took t need ∧ Q x t
  | .error f _ => offences.head? = some f ∨ ¬ s.HasRoom need

theorem Meets.of_ok (h : Meets s offences need Q a) {x : α} {t : Store} (hok : a s = .ok x t) :
    offences = [] ∧ s.Took t need ∧ Q x t := by
  rw [Meets, hok] at h
  exact h

theorem Meets.of_error (h : Meets s offences need Q a) {f : Failure} {t : Store}
    (herror : a s = .error f t) (hroom : s.HasRoom need) : offences.head? = some f := by
  rw [Meets, herror] at h
  exact h.resolve_right (not_not_intro hroom)

theorem meets_of_ok {x : α} {t : Store} (hok : a s = .ok x t) (hneed : s.Took t need)
    (hQ : Q x t) : Meets s [] need Q a := by
  rw [Meets, hok]
  exact ⟨rfl, hneed, hQ⟩

theorem Meets.pure {x : α} (h : Q x s) : Meets s [] 0 Q (pure x) :=
  meets_of_ok (t := s) rfl (fun e => by simp) h

theorem Meets.mono (h : Meets s offences need Q a) (hQ : ∀ x t, Q x t → Q' x t) :
    Meets s offences need Q' a := by
  unfold Meets at h ⊢
  split
  · rename_i x t hok
    rw [hok] at h
    exact ⟨h.1, h.2.1, hQ x t h.2.2⟩
  · rename_i f t herror
    rw [herror] at h
    exact h

/-- What is known of every success may be added. -/
theorem Meets.and (h : Meets s offences need Q a) (hQ : ∀ x t, a s = .ok x t → Q' x t) :
    Meets s offences need (fun x t => Q' x t ∧ Q x t) a := by
  unfold Meets at h ⊢
  split
  · rename_i x t hok
    rw [hok] at h
    exact ⟨h.1, h.2.1, hQ x t hok, h.2.2⟩
  · rename_i f t herror
    rw [herror] at h
    exact h

/-- **Sequencing**: the offences of the second action come after those of the first, and the
identifiers it takes are taken in addition. -/
theorem Meets.bind {f : α → Action β} {R : β → Store → Prop} (ha : Meets s offences need Q a)
    (hf : ∀ x t, Q x t → Meets t offences' need' R (f x)) :
    Meets s (offences ++ offences') (need + need') R (a >>= f) := by
  cases has : a s with
  | error fault t =>
    have hbind : (a >>= f) s = .error fault t := by simp only [Bind.bind, EStateM.bind, has]
    rw [Meets, has] at ha
    rw [Meets, hbind]
    rcases ha with hhead | hroom
    · exact .inl (by rw [List.head?_append, hhead]; rfl)
    · exact .inr fun h => hroom h.left
  | ok x t =>
    have hbind : (a >>= f) s = f x t := by simp only [Bind.bind, EStateM.bind, has]
    obtain ⟨hnone, htook, hQ⟩ := ha.of_ok has
    have hfx := hf x t hQ
    unfold Meets at hfx ⊢
    rw [hbind, hnone, List.nil_append]
    split
    · rename_i y u hy
      rw [hy] at hfx
      exact ⟨hfx.1, htook.trans hfx.2.1, hfx.2.2⟩
    · rename_i fault u hfault
      rw [hfault] at hfx
      exact hfx.imp_right fun hroom h => hroom (h.right htook)

theorem Meets.within (h : Meets s offences need Q a) (context : String) :
    Meets s (offences.map (Failure.within context)) need Q (within context a) := by
  unfold Meets at h ⊢
  cases has : a s with
  | ok x t =>
    rw [has] at h
    simp only [Action.within, has]
    exact ⟨by rw [h.1, List.map_nil], h.2⟩
  | error f t =>
    rw [has] at h
    simp only [Action.within, has]
    exact h.imp_left fun hhead => by rw [List.head?_map, hhead]; rfl

theorem Meets.get_bind {f : Store → Action α} (h : Meets s offences need Q (f s)) :
    Meets s offences need Q (get >>= f) := h

/-- Actions that only add regular rows keep stores sound. -/
theorem Meets.sound (h : Meets s offences need Q a) (ha : Grows a) (hs : s.Sound) :
    Meets s offences need (fun x t => t.Sound ∧ Q x t) a := by
  refine h.and fun x t hok => ?_
  have hfinal := Session.keeps_of_via (fun _ _ hgrowth hs => Store.Sound.growth hs hgrowth) ha s hs
  rw [hok] at hfinal
  exact hfinal

end Action

/-! ## Checks of lengths -/

/-- The offence of a text that is longer than its limit. -/
def lengthOffences (field value : String) (limit : Nat) : List Failure :=
  if value.length ≤ limit then [] else [⟨.tooLong ⟨field, value.length, limit⟩, []⟩]

theorem lengthOffences_eq_nil_iff {field value : String} {limit : Nat} :
    lengthOffences field value limit = [] ↔ value.length ≤ limit := by
  unfold lengthOffences
  split <;> simp_all

theorem Action.meets_checkLength (s : Store) (field value : String) (limit : Nat) :
    Meets s (lengthOffences field value limit) 0 (fun _ t => t = s ∧ value.length ≤ limit)
      (checkLength field value limit) := by
  unfold Meets
  by_cases h : value.length ≤ limit
  · rw [checkLength, Limit.check_eq_ok_iff.2 h]
    exact ⟨lengthOffences_eq_nil_iff.2 h, fun e => by simp, rfl, h⟩
  · rw [checkLength, Limit.check_eq_error (by omega)]
    exact .inl (by rw [lengthOffences, if_neg h]; rfl)

/-- What comes after a check of a text may rely on its length. -/
theorem Action.Meets.checkLength_bind {α : Type} {s : Store} {offences : List Failure}
    {need : Entity → Nat} {Q : α → Store → Prop} {field value : String} {limit : Nat}
    {f : Unit → Action α} (hf : value.length ≤ limit → Meets s offences need Q (f ())) :
    Meets s (lengthOffences field value limit ++ offences) need Q
      (checkLength field value limit >>= f) := by
  have hnext : ∀ x t, t = s ∧ value.length ≤ limit → Meets t offences need Q (f x) := by
    rintro ⟨⟩ t ⟨rfl, hle⟩
    exact hf hle
  rw [← zero_add need]
  exact (meets_checkLength s field value limit).bind hnext

theorem Action.Meets.checkedLength {α : Type} {s : Store} {need : Entity → Nat}
    {Q : α → Store → Prop} {field value : String} {limit : Nat} {f : Unit → Action α}
    (hf : value.length ≤ limit → Meets s [] need Q (f ())) :
    Meets s (lengthOffences field value limit) need Q (checkLength field value limit >>= f) := by
  rw [← List.append_nil (lengthOffences field value limit)]
  exact .checkLength_bind hf

/-! ## New rows -/

namespace Store

variable {s : Store} {e : Entity} {r : Row e}

theorem overLong?_eq_none_iff :
    overLong? e r = none ↔ ∀ b ∈ Row.boundedTexts e r, b.text.columnLength ≤ b.limit := by
  rw [overLong?, Option.map_eq_none_iff, List.find?_eq_none]
  refine forall₂_congr fun b _ => ?_
  rw [decide_eq_true_eq, Nat.not_lt]

/-- A text that is short enough for the check of an operation is so for its column. -/
theorem overLong?_eq_none (hfits : ∀ b ∈ Row.boundedTexts e r, b.text.Fits b.limit) :
    overLong? e r = none := by
  refine overLong?_eq_none_iff.2 fun b hb => ?_
  obtain ⟨text, htext, hle⟩ := hfits b hb
  rw [htext]
  exact (Limit.columnLength_le text).trans hle

theorem Coherent.has_nextId (h : s.Coherent) {id : Int} (hnext : s.nextId? e = some id) :
    s.has (e, id) = false := by
  rw [← Bool.not_eq_true, has_iff]
  rintro ⟨q, hq, hid⟩
  have hle := h.id_le_last e q hq
  have hnew := (nextId?_eq_some_iff.1 hnext).2
  simp only at hid
  omega

theorem Coherent.violation?_eq_none (h : s.Coherent) (hnext : s.nextId? e = some (Row.id e r))
    (hfits : ∀ b ∈ Row.boundedTexts e r, b.text.Fits b.limit) (hname : s.nameTaken e r = false)
    (hrefs : ∀ ref ∈ Row.references e r, s.has ref = true) : s.violation? e r = none :=
  violation?_eq_none_iff.2 ⟨overLong?_eq_none hfits, h.has_nextId hnext, hname, hrefs⟩

theorem not_hasRoom_of_nextId? (h : s.nextId? e = none) {need : Entity → Nat} (hneed : 0 < need e) :
    ¬ s.HasRoom need := by
  intro hroom
  have hle := hroom e
  unfold nextId? at h
  split at h
  · cases h
  · omega

theorem Appended.took {t : Store} (happ : Appended e s t r) : s.Took t (Pi.single e 1) := by
  intro f
  by_cases hf : f = e
  · subst hf
    rw [happ.last_eq, Pi.single_eq_same]
    rfl
  · rw [happ.frame f hf, Pi.single_eq_of_ne hf]
    simp

end Store

namespace Action

variable {s : Store} {e : Entity} {build : Int → Row e}

/-- A row that is in order is added under the next identifier. -/
theorem meets_insertNew (h : s.Coherent) (hid : ∀ id, Row.id e (build id) = id)
    (hfits : ∀ id, ∀ b ∈ Row.boundedTexts e (build id), b.text.Fits b.limit)
    (hname : ∀ id, s.nameTaken e (build id) = false)
    (hrefs : ∀ id, ∀ ref ∈ Row.references e (build id), s.has ref = true) :
    Meets s [] (Pi.single e 1) (fun r t => Store.Appended e s t r ∧ r = build (Row.id e r))
      (insertNew e build) := by
  rcases Option.eq_none_or_eq_some (s.nextId? e) with hnext | ⟨id, hnext⟩
  · rw [Meets, insertNew_eq, hnext]
    exact .inr (Store.not_hasRoom_of_nextId? hnext (by simp))
  · have hnext' : s.nextId? e = some (Row.id e (build id)) := by rw [hid, hnext]
    have hok := h.violation?_eq_none hnext' (hfits id) (hname id) (hrefs id)
    have happ := h.appended hnext' hok
    refine meets_of_ok (x := build id) (t := s.add e (build id)) ?_ happ.took ⟨happ, by rw [hid]⟩
    rw [insertNew_eq, hnext]
    simp only [hok]

end Action

/-! ## Rows by key -/

/-- The row with a key was found in a table, or there was none and it was added at the end. -/
inductive Table.Ensured {e : Entity} (key : Row e → Prop) (before after : Table e) (r : Row e) :
    Prop where
  | found : r ∈ before.rows → key r → after.rows = before.rows → Ensured key before after r
  | added : (∀ q ∈ before.rows, ¬ key q) → key r → after.rows = before.rows ++ [r] →
      Row.id e r = before.last + 1 → Ensured key before after r

namespace Table.Ensured

variable {e : Entity} {key key' : Row e → Prop} {before after : Table e} {r : Row e}

theorem has_key (h : Ensured key before after r) : key r := by
  cases h with
  | found _ hkey _ => exact hkey
  | added _ hkey _ _ => exact hkey

theorem mem (h : Ensured key before after r) : r ∈ after.rows := by
  cases h with
  | found hmem _ hrows => rw [hrows]; exact hmem
  | added _ _ hrows _ => rw [hrows]; exact List.mem_append_right _ (List.mem_singleton_self r)

theorem rows_prefix (h : Ensured key before after r) : before.rows <+: after.rows := by
  cases h with
  | found _ _ hrows => rw [hrows]
  | added _ _ hrows _ => rw [hrows]; exact List.prefix_append _ _

theorem congr (h : Ensured key before after r) (hkey : ∀ q, key q ↔ key' q) :
    Ensured key' before after r := by
  have heq : key = key' := funext fun q => propext (hkey q)
  rwa [heq] at h

end Table.Ensured

theorem Store.Appended.ensured {e : Entity} {key : Row e → Prop} {s t : Store} {r : Row e}
    (happ : Store.Appended e s t r) (hnone : ∀ q ∈ s.rows e, ¬ key q) (hkey : key r) :
    Table.Ensured key (s.table e) (t.table e) r :=
  .added hnone hkey happ.rows_eq happ.id_eq

namespace Store

variable {s : Store} {e : Entity}

theorem findNamed?_eq_none_iff {name : TextCell} :
    (s.table e).findNamed? name = none ↔ ∀ q ∈ s.rows e, Row.uniqueName? e q ≠ some name := by
  simp [Table.findNamed?, rows]

theorem took_spendId {id : Int} (hnext : s.nextId? e = some id) :
    s.Took (s.spendId e id) (Pi.single e 1) := by
  have hid := (nextId?_eq_some_iff.1 hnext).2
  intro f
  rw [last_spendId]
  split
  · rename_i hf
    subst hf
    rw [Pi.single_eq_same]
    omega
  · rename_i hf
    rw [Pi.single_eq_of_ne hf]
    omega

theorem Coherent.growsIn_spendId (h : s.Coherent) (id : Int) : GrowsIn e s (s.spendId e id) := by
  refine ⟨h.spendId id, ?_, fun f hf => table_setTable_ne _ _ hf⟩
  simp only [rows_spendId, List.prefix_rfl]

/-- A row whose name is taken is refused for that, if nothing else is wrong with its texts. -/
theorem Coherent.violation?_eq_sameName (h : s.Coherent) {r : Row e}
    (hnext : s.nextId? e = some (Row.id e r))
    (hfits : ∀ b ∈ Row.boundedTexts e r, b.text.Fits b.limit) (hname : s.nameTaken e r = true) :
    s.violation? e r = some (.sameName e) := by
  unfold violation?
  rw [overLong?_eq_none hfits]
  simp [h.has_nextId hnext, hname]

end Store

namespace Action

variable {s : Store} {e : Entity} {build : Int → Row e} {name : String}

/-- If the name is new, the row is added and found. -/
theorem ensureNamed_of_new {α : Type} {give : Int → α} {id : Int} (h : s.Coherent)
    (hid : Row.id e (build id) = id)
    (hname : Row.uniqueName? e (build id) = some (name : TextCell))
    (hfits : ∀ b ∈ Row.boundedTexts e (build id), b.text.Fits b.limit)
    (hrefs : Row.references e (build id) = []) (hnext : s.nextId? e = some id)
    (hnone : ∀ q ∈ s.rows e, Row.uniqueName? e q ≠ some (name : TextCell)) :
    s.violation? e (build id) = none ∧
      (insertIfNewName e build >>= fun _ => findNamed e name >>= fun id => pure (give id)) s =
        .ok (give id) (s.add e (build id)) := by
  have hnext' : s.nextId? e = some (Row.id e (build id)) := by rw [hid, hnext]
  have hfind := Store.findNamed?_eq_none_iff.2 hnone
  have htaken : s.nameTaken e (build id) = false := by
    simp only [Store.nameTaken, hname, hfind, Option.isSome_none]
  have hok := h.violation?_eq_none hnext' hfits htaken (by simp [hrefs])
  have hinsert : insertIfNewName e build s = .ok () (s.add e (build id)) := by
    rw [insertIfNewName_eq, hnext]
    simp only [hok]
  have hfound : ((s.add e (build id)).table e).findNamed? name = some (build id) := by
    have hrows : ((s.add e (build id)).table e).rows = (s.table e).rows ++ [build id] :=
      (h.appended hnext' hok).rows_eq
    have hold : (s.table e).rows.find? (fun r => Row.uniqueName? e r == some (name : TextCell)) =
        none := hfind
    rw [Table.findNamed?, hrows, List.find?_append, hold]
    simp [hname]
  refine ⟨hok, ?_⟩
  simp only [Bind.bind, EStateM.bind, hinsert, findNamed, hfound, hid, Pure.pure, EStateM.pure]

/-- If the name exists, the row with it is found, and the identifier is spent. -/
theorem ensureNamed_of_known {α : Type} {give : Int → α} {id : Int} {q : Row e} (h : s.Coherent)
    (hid : Row.id e (build id) = id) (hname : Row.uniqueName? e (build id) = some (name : TextCell))
    (hfits : ∀ b ∈ Row.boundedTexts e (build id), b.text.Fits b.limit)
    (hnext : s.nextId? e = some id) (hfind : (s.table e).findNamed? name = some q) :
    (insertIfNewName e build >>= fun _ => findNamed e name >>= fun id => pure (give id)) s =
      .ok (give (Row.id e q)) (s.spendId e id) := by
  have hnext' : s.nextId? e = some (Row.id e (build id)) := by rw [hid, hnext]
  have htaken : s.nameTaken e (build id) = true := by
    simp only [Store.nameTaken, hname, hfind, Option.isSome_some]
  have hviolation := h.violation?_eq_sameName hnext' hfits htaken
  have hinsert : insertIfNewName e build s = .ok () (s.spendId e id) := by
    rw [insertIfNewName_eq, hnext]
    simp only [hviolation]
  have hfound : ((s.spendId e id).table e).findNamed? name = some q := by
    have hrows : ((s.spendId e id).table e).rows = (s.table e).rows := Store.rows_spendId id
    rw [Table.findNamed?, hrows]
    exact hfind
  simp only [Bind.bind, EStateM.bind, hinsert, findNamed, hfound, Pure.pure, EStateM.pure]

/-- **Adding a row unless its name exists, and then looking the name up.**  An identifier is taken
in either case. -/
theorem meets_ensureNamed {α : Type} {give : Int → α} (h : s.Coherent)
    (hid : ∀ id, Row.id e (build id) = id)
    (hname : ∀ id, Row.uniqueName? e (build id) = some (name : TextCell))
    (hfits : ∀ id, ∀ b ∈ Row.boundedTexts e (build id), b.text.Fits b.limit)
    (hrefs : ∀ id, Row.references e (build id) = []) :
    Meets s [] (Pi.single e 1)
      (fun x t => Store.GrowsIn e s t ∧ ∃ r, x = give (Row.id e r) ∧
        Table.Ensured (fun q => Row.uniqueName? e q = some (name : TextCell)) (s.table e)
          (t.table e) r)
      (insertIfNewName e build >>= fun _ => findNamed e name >>= fun id => pure (give id)) := by
  rcases Option.eq_none_or_eq_some (s.nextId? e) with hnext | ⟨id, hnext⟩
  · have hinsert : insertIfNewName e build s = .error (.ofViolation .full) s := by
      rw [insertIfNewName_eq, hnext]
    rw [Meets]
    simp only [Bind.bind, EStateM.bind, hinsert]
    exact .inr (Store.not_hasRoom_of_nextId? hnext (by simp))
  rcases Option.eq_none_or_eq_some ((s.table e).findNamed? name) with hfind | ⟨q, hfind⟩
  · have hnone := Store.findNamed?_eq_none_iff.1 hfind
    obtain ⟨hok, hadded⟩ :=
      @ensureNamed_of_new s e build name α give id h (hid id) (hname id) (hfits id) (hrefs id) hnext
        hnone
    have happ := h.appended (by rw [hid, hnext]) hok
    exact meets_of_ok hadded happ.took
      ⟨happ.toGrowsIn, build id, by rw [hid], happ.ensured hnone (hname id)⟩
  · obtain ⟨hmem, hqname⟩ := Table.mem_of_findNamed? hfind
    have hfound :=
      @ensureNamed_of_known s e build name α give id q h (hid id) (hname id) (hfits id) hnext hfind
    exact meets_of_ok hfound (Store.took_spendId hnext)
      ⟨h.growsIn_spendId id, q, rfl, .found hmem hqname (Store.rows_spendId id)⟩

theorem meets_ensureUser (h : s.Coherent) (username : String) :
    Meets s (lengthOffences "username" username Limit.username) (Pi.single .user 1)
      (fun user t => Store.GrowsIn .user s t ∧
        Table.Ensured (e := .user) (·.username = username) s.users t.users user.stored)
      (ensureUser username) := by
  refine .checkedLength fun hle => ?_
  refine (meets_ensureNamed h (fun _ => rfl) (fun _ => rfl)
    (by simpa [Row.boundedTexts] using hle) (fun _ => rfl)).mono ?_
  rintro user t ⟨hgrows, ⟨id, cell⟩, rfl, hensured⟩
  cases Option.some.inj hensured.has_key
  exact ⟨hgrows, hensured.congr fun q => Option.some_inj⟩

theorem meets_ensureArch (h : s.Coherent) (name : String) :
    Meets s (lengthOffences "name" name Limit.archName) (Pi.single .arch 1)
      (fun arch t => Store.GrowsIn .arch s t ∧
        Table.Ensured (e := .arch) (·.name = name) s.arches t.arches arch.stored)
      (ensureArch name) := by
  refine .checkedLength fun hle => ?_
  refine (meets_ensureNamed h (fun _ => rfl) (fun _ => rfl)
    (by simpa [Row.boundedTexts] using hle) (fun _ => rfl)).mono ?_
  rintro arch t ⟨hgrows, ⟨id, cell⟩, rfl, hensured⟩
  cases Option.some.inj hensured.has_key
  exact ⟨hgrows, hensured.congr fun q => Option.some_inj⟩

end Action

/-! ## Hosts and opcodes -/

/-- Only the answer is made into something else. -/
theorem Action.Meets.map {α β : Type} {s : Store} {a : Action α} {offences : List Failure}
    {need : Entity → Nat} {Q : α → Store → Prop} {R : β → Store → Prop}
    (h : Meets s offences need Q a) {f : α → β} (hR : ∀ x t, Q x t → R (f x) t) :
    Meets s offences need R (do return f (← a)) := by
  have hbind := h.bind fun x t hQ => Meets.pure (hR x t hQ)
  rwa [List.append_nil, add_zero] at hbind

namespace Store

variable {s : Store}

/-- The offence of asking for a host: a known one must be on the architecture, and the name of a new
one must fit. -/
def hostOffences (s : Store) (hostname : String) (archId : Int) : List Failure :=
  match s.hosts.findNamed? hostname with
  | some host =>
    if host.archId = archId then []
    else [⟨.hostArchMismatch hostname host.archId archId, []⟩]
  | none => lengthOffences "hostname" hostname Limit.hostname

/-- Whether a host of that name is known. -/
def knowsHost (s : Store) (hostname : String) : Bool := (s.hosts.findNamed? hostname).isSome

/-- Whether an opcode of that name is known on an architecture. -/
def knowsOpcode (s : Store) (archId : Int) (name : String) : Bool :=
  s.opcodes.rows.any fun o => o.archId == archId && o.name == .text name

theorem knowsOpcode_iff {archId : Int} {name : String} :
    s.knowsOpcode archId name = true ↔ ∃ o ∈ s.opcodes.rows, o.archId = archId ∧ o.name = name := by
  simp [knowsOpcode]

theorem Sound.knownOpcode_fits (h : s.Sound) {archId : Int} {name : String}
    (hknows : s.knowsOpcode archId name = true) : name.length ≤ Limit.opcodeName := by
  obtain ⟨o, ho, -, hname⟩ := knowsOpcode_iff.1 hknows
  have hfits := (h.tidy.proper .opcode o ho).fits _ List.mem_cons_self
  rw [hname] at hfits
  exact TextCell.fits_text.1 hfits

theorem took_zero (s : Store) (e : Entity) : s.Took s (Pi.single e 0) := by
  intro f
  simp

/-- Names of opcodes are not taken: several opcodes may share one. -/
theorem nameTaken_of_none {e : Entity} {r : Row e} (h : Row.uniqueName? e r = none) :
    s.nameTaken e r = false := by
  simp only [nameTaken, h]

end Store

namespace Action

variable {s : Store} {archId : Int}

theorem meets_createHost (h : s.Coherent) {hostname : String}
    (hnew : s.hosts.findNamed? hostname = none) (harch : s.has (.arch, archId) = true) :
    Meets s (lengthOffences "hostname" hostname Limit.hostname) (Pi.single .host 1)
      (fun host t => Store.Appended .host s t host.stored ∧ host = ⟨host.id, hostname, archId⟩)
      (createHost hostname archId) := by
  have htaken (id : Int) : s.nameTaken .host (⟨id, hostname, archId⟩ : Host TextCell) = false := by
    have hfind : (s.table .host).findNamed? hostname = none := hnew
    simp only [Store.nameTaken, Row.uniqueName?, hfind, Option.isSome_none]
  refine .checkedLength fun hle => ?_
  have hinsert := meets_insertNew (e := .host) h (fun _ => rfl)
    (by simpa [Row.boundedTexts] using hle) htaken (by simpa [Row.references_eq] using harch)
  refine hinsert.map (f := fun row => (⟨row.id, hostname, archId⟩ : Host)) ?_
  rintro row t ⟨happ, hbuild⟩
  rw [hbuild] at happ
  exact ⟨happ, rfl⟩

/-- A known host is answered if it is on the architecture; a new one is added there. -/
theorem meets_ensureHost (h : s.Coherent) (hostname : String)
    (harch : s.has (.arch, archId) = true) :
    Meets s (s.hostOffences hostname archId)
      (Pi.single .host (if s.knowsHost hostname then 0 else 1))
      (fun host t => Store.GrowsIn .host s t ∧
        Table.Ensured (e := .host) (·.hostname = hostname) s.hosts t.hosts host.stored ∧
        host.archId = archId)
      (ensureHost hostname archId) := by
  refine .get_bind ?_
  rw [Store.findHost?_eq]
  cases hfind : s.hosts.findNamed? hostname with
  | some row =>
    obtain ⟨id, cell, archId'⟩ := row
    obtain ⟨hmem, hname⟩ := Table.mem_of_findNamed? hfind
    cases Option.some.inj hname
    simp only [Store.hostOffences, Store.knowsHost, hfind, Option.isSome_some, if_true,
      Option.map_some]
    by_cases hon : archId' = archId
    · rw [if_pos hon, if_pos hon]
      exact meets_of_ok rfl (s.took_zero .host) ⟨.refl h, .found hmem rfl rfl, hon⟩
    · rw [if_neg hon, if_neg hon]
      exact .inl rfl
  | none =>
    simp only [Store.hostOffences, Store.knowsHost, hfind, Option.isSome_none, Bool.false_eq_true,
      if_false, Option.map_none]
    have hnone : ∀ q ∈ s.hosts.rows, q.hostname ≠ hostname := fun q hq hname =>
      Store.findNamed?_eq_none_iff (e := .host).1 hfind q hq (congrArg some hname)
    refine (meets_createHost h hfind harch).mono ?_
    rintro host t ⟨happ, hbuild⟩
    exact ⟨happ.toGrowsIn, happ.ensured hnone (by rw [hbuild]; rfl), by rw [hbuild]⟩

theorem meets_createOpcode (h : s.Coherent) (name : String)
    (harch : s.has (.arch, archId) = true) :
    Meets s (lengthOffences "name" name Limit.opcodeName) (Pi.single .opcode 1)
      (fun opcode t =>
        Store.Appended .opcode s t opcode.stored ∧ opcode = ⟨opcode.id, name, archId⟩)
      (createOpcode name archId) := by
  refine .checkedLength fun hle => ?_
  have hinsert : Meets s [] (Pi.single .opcode 1) _
      (insertNew .opcode fun id => ⟨id, name, archId⟩) :=
    meets_insertNew h (fun _ => rfl) (by simpa [Row.boundedTexts] using hle)
      (fun _ => Store.nameTaken_of_none rfl) (by simpa [Row.references_eq] using harch)
  refine hinsert.map (f := fun row => (⟨row.id, name, archId⟩ : Opcode)) ?_
  rintro row t ⟨happ, hbuild⟩
  rw [hbuild] at happ
  exact ⟨happ, rfl⟩

/-- A known opcode is answered; a new one is added.  In a sound store the name of a known one
fits. -/
theorem meets_ensureOpcode (h : s.Sound) (name : String) (harch : s.has (.arch, archId) = true) :
    Meets s (lengthOffences "name" name Limit.opcodeName)
      (Pi.single .opcode (if s.knowsOpcode archId name then 0 else 1))
      (fun opcode t => Store.GrowsIn .opcode s t ∧
        Table.Ensured (e := .opcode) (fun o => o.archId = archId ∧ o.name = name) s.opcodes
          t.opcodes opcode.stored)
      (ensureOpcode name archId) := by
  refine .get_bind ?_
  cases hfind : s.opcodes.rows.find? fun o => o.archId == archId && o.name == .text name with
  | some row =>
    have hmem := List.mem_of_find?_eq_some hfind
    have hkey : row.archId = archId ∧ row.name = name := by simpa using List.find?_some hfind
    have hknows := Store.knowsOpcode_iff.2 ⟨row, hmem, hkey⟩
    rw [if_pos hknows, lengthOffences_eq_nil_iff.2 (h.knownOpcode_fits hknows)]
    obtain ⟨id, cell, archId'⟩ := row
    obtain ⟨rfl, rfl⟩ := hkey
    exact meets_of_ok rfl (s.took_zero .opcode) ⟨.refl h.coherent, .found hmem ⟨rfl, rfl⟩ rfl⟩
  | none =>
    have hnone : ∀ o ∈ s.opcodes.rows, ¬ (o.archId = archId ∧ o.name = name) := by
      simpa using List.find?_eq_none.1 hfind
    rw [if_neg fun hknows => by
      obtain ⟨o, ho, hkey⟩ := Store.knowsOpcode_iff.1 hknows
      exact hnone o ho hkey]
    refine (meets_createOpcode h.coherent name harch).mono ?_
    rintro opcode t ⟨happ, hbuild⟩
    exact ⟨happ.toGrowsIn, happ.ensured hnone (by rw [hbuild]; exact ⟨rfl, rfl⟩)⟩

/-! ## Batches and results -/

theorem meets_createBatch (h : s.Coherent) (now : Stamp) {b : NewBatch}
    (hhost : s.has (.host, b.testingHostId) = true) (huser : s.has (.user, b.userId) = true) :
    Meets s (lengthOffences "fuzzer_host" b.fuzzerHost Limit.fuzzerHost) (Pi.single .batch 1)
      (fun batch t => Store.Appended .batch s t
        (⟨batch.id, b.fuzzerHost, b.testingHostId, b.userId, now.text⟩ : StoredBatch))
      (createBatch now b) := by
  refine .checkedLength fun hle => ?_
  refine (meets_insertNew h (fun _ => rfl) (by simpa [Row.boundedTexts] using hle)
    (fun _ => Store.nameTaken_of_none rfl)
    (by simpa [Row.references_eq] using ⟨hhost, huser⟩)).map ?_
  rintro row t ⟨happ, hbuild⟩
  rw [hbuild] at happ
  exact happ

theorem meets_addTestSuccess (h : s.Coherent) {batchId opcodeId : Int} (count : Int32)
    (hbatch : s.has (.batch, batchId) = true) (hopcode : s.has (.opcode, opcodeId) = true) :
    Meets s [] (Pi.single .testSuccess 1)
      (fun x t => Store.Appended .testSuccess s t
        (⟨x.id, batchId, opcodeId, .int count.toInt⟩ : StoredSuccess))
      (addTestSuccess batchId opcodeId count) := by
  refine (meets_insertNew h (fun _ => rfl) (by simp [Row.boundedTexts])
    (fun _ => Store.nameTaken_of_none rfl)
    (by simpa [Row.references_eq] using ⟨hbatch, hopcode⟩)).map ?_
  rintro row t ⟨happ, hbuild⟩
  rw [hbuild] at happ
  exact happ

theorem meets_addTestFailure (h : s.Coherent) {f : NewTestFailure}
    (hbatch : s.has (.batch, f.batchId) = true) (hopcode : s.has (.opcode, f.opcodeId) = true) :
    Meets s (lengthOffences "pretty" f.pretty Limit.failurePretty) (Pi.single .testFailure 1)
      (fun x t => Store.Appended .testFailure s t x.stored ∧
        x = ⟨x.id, f.batchId, f.opcodeId, f.pretty, f.arguments⟩)
      (addTestFailure f) := by
  refine .checkedLength fun hle => ?_
  have hinsert : Meets s [] (Pi.single .testFailure 1) _ (insertNew .testFailure fun id =>
      ⟨id, f.batchId, f.opcodeId, f.pretty, f.arguments⟩) :=
    meets_insertNew h (fun _ => rfl) (by simpa [Row.boundedTexts] using hle)
      (fun _ => Store.nameTaken_of_none rfl) (by simpa [Row.references_eq] using ⟨hbatch, hopcode⟩)
  refine hinsert.map
    (f := fun row => (⟨row.id, f.batchId, f.opcodeId, f.pretty, f.arguments⟩ : TestFailure)) ?_
  rintro row t ⟨happ, hbuild⟩
  rw [hbuild] at happ
  exact ⟨happ, rfl⟩

end Action

/-- The offences of a difference: its texts are checked in the order of declaration. -/
def StateDiff.offences (d : StateDiff) : List Failure :=
  lengthOffences "location" d.location Limit.stateLocation ++
    (lengthOffences "expected_value" d.expected Limit.stateValue ++
      lengthOffences "actual_value" d.actual Limit.stateValue)

theorem Action.meets_addTestFailureState {s : Store} (h : s.Coherent) {failureId : Int}
    (d : StateDiff) (hfailure : s.has (.testFailure, failureId) = true) :
    Meets s d.offences (Pi.single .testFailureState 1)
      (fun x t => Store.Appended .testFailureState s t x.stored ∧
        x = ⟨x.id, failureId, d.location, d.expected, d.actual⟩)
      (addTestFailureState ⟨failureId, d.location, d.expected, d.actual⟩) := by
  refine .checkLength_bind fun hlocation => .checkLength_bind fun hexpected =>
    .checkedLength fun hactual => ?_
  have hinsert : Meets s [] (Pi.single .testFailureState 1) _ (insertNew .testFailureState fun id =>
      ⟨id, failureId, d.location, d.expected, d.actual⟩) :=
    meets_insertNew h (fun _ => rfl)
      (by simpa [Row.boundedTexts] using ⟨hlocation, hexpected, hactual⟩)
      (fun _ => Store.nameTaken_of_none rfl) (by simpa [Row.references_eq] using hfailure)
  refine hinsert.map (f := fun row =>
    (⟨row.id, failureId, d.location, d.expected, d.actual⟩ : TestFailureState)) ?_
  rintro row t ⟨happ, hbuild⟩
  rw [hbuild] at happ
  exact ⟨happ, rfl⟩

end FuzzLedger
