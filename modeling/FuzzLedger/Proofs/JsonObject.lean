import FuzzLedger.Json.Decode
import FuzzLedger.Proofs.JsonGrammar

/-!
# Which data are read as a record or a list

A record is read from an object by its keys, so what matters of the object are the values that
stand under each key (`under`), and neither the order of its members nor any other key.  Under the
key of a field there must stand one value that the field reads, or none if the field may be left out
(`Field.Gives`).

* `readMembersWith_ok_iff` — members are taken one after the other: a slot that is filled bears no
  other value under its key, an empty one is to be filled yet (`Field.Completes`).
* `readRecord_ok_iff` — hence which objects are read as a record, and what is read.
* `readList_ok_iff` — which data are read as a list; `gives_text`, `gives_count` and `gives_list`
  say what fields of the common kinds make of the values under their keys.
-/

set_option autoImplicit false

namespace FuzzLedger.Json

/-- A computation that gives a result goes through one. -/
theorem bind_ok {ε α β : Type} {x : Except ε α} {next : α → Except ε β} {b : β}
    (h : (x >>= next) = .ok b) : ∃ a, x = .ok a ∧ next a = .ok b := by
  cases x with
  | error fault => cases h
  | ok a => exact ⟨a, rfl, h⟩

theorem bind_ok_iff {ε α β : Type} {x : Except ε α} {next : α → Except ε β} {b : β} :
    (x >>= next) = .ok b ↔ ∃ a, x = .ok a ∧ next a = .ok b := by
  refine ⟨bind_ok, ?_⟩
  rintro ⟨a, rfl, hb⟩
  exact hb

theorem Tree.unexpected_ne_ok {α : Type} {expected : String} {t : Tree} {x : α} :
    t.unexpected expected ≠ .ok x := by
  intro h
  unfold Tree.unexpected at h
  split at h <;> cases h

/-! ## Values under a key -/

/-- The values that stand under a key, in their order. -/
def under (key : String) (members : List (String × Datum)) : List Datum :=
  (members.filter fun m => m.1 = key).map Prod.snd

section Under

variable {key : String} {members members' : List (String × Datum)}

theorem under_cons_self (v : Datum) : under key ((key, v) :: members) = v :: under key members := by
  simp [under]

theorem under_cons_ne {k : String} (h : k ≠ key) (v : Datum) :
    under key ((k, v) :: members) = under key members := by
  simp [under, h]

theorem mem_under_iff {v : Datum} : v ∈ under key members ↔ (key, v) ∈ members := by
  simp [under]

theorem under_append :
    under key (members ++ members') = under key members ++ under key members' := by
  simp [under]

theorem under_perm (h : members.Perm members') : (under key members).Perm (under key members') :=
  (h.filter _).map _

theorem under_eq_nil_iff : under key members = [] ↔ ∀ m ∈ members, m.1 ≠ key := by
  simp [under]

/-- A value that stands alone under its key. -/
theorem eq_of_under {v w : Datum} (h : under key members = [v]) (hw : (key, w) ∈ members) :
    w = v := by
  rw [← mem_under_iff, h] at hw
  exact List.mem_singleton.1 hw

/-- What is left out under another key does not matter. -/
theorem under_filter_ne {k : String} (h : key ≠ k) :
    under key (members.filter fun m => m.1 ≠ k) = under key members := by
  unfold under
  rw [List.filter_filter]
  congr 1
  refine List.filter_congr fun m _ => ?_
  by_cases hm : m.1 = key
  · simp [hm, h]
  · simp [hm]

end Under

/-! ## Other members -/

/-- The same members in another order, and others beside them under keys that are not known. -/
def Extends (Known : String → Prop) (members members' : List (String × Datum)) : Prop :=
  ∃ extra, members'.Perm (members ++ extra) ∧ ∀ m ∈ extra, ¬ Known m.1

/-- The elements of an array under a key are replaced by related ones, and nothing else is. -/
def ReplacedUnder (key : String) (R : Datum → Datum → Prop) :
    List (String × Datum) → List (String × Datum) → Prop :=
  List.Forall₂ fun m m' => m.1 = m'.1 ∧ (m.2 = m'.2 ∨ m.1 = key ∧
    ∃ items items', m.2 = .seq items ∧ m'.2 = .seq items' ∧ List.Forall₂ R items items')

section Others

variable {Known : String → Prop} {key : String} {members members' : List (String × Datum)}

theorem Extends.under_perm (h : Extends Known members members') (hkey : Known key) :
    (under key members').Perm (under key members) := by
  obtain ⟨extra, hperm, hextra⟩ := h
  have hnone : under key extra = [] :=
    under_eq_nil_iff.2 fun m hm heq => hextra m hm (heq ▸ hkey)
  have hunder : (under key members').Perm (under key (members ++ extra)) := Json.under_perm hperm
  rwa [under_append, hnone, List.append_nil] at hunder

/-- What stands alone under a known key still does. -/
theorem Extends.under_eq_singleton_iff (h : Extends Known members members') (hkey : Known key)
    {v : Datum} : under key members' = [v] ↔ under key members = [v] := by
  have hperm := h.under_perm hkey
  constructor
  · intro heq
    rw [heq] at hperm
    exact List.perm_singleton.1 hperm.symm
  · intro heq
    rw [heq] at hperm
    exact List.perm_singleton.1 hperm

theorem Extends.under_eq_nil_iff (h : Extends Known members members') (hkey : Known key) :
    under key members' = [] ↔ under key members = [] := by
  have hperm := h.under_perm hkey
  constructor
  · intro heq
    rw [heq] at hperm
    exact hperm.symm.eq_nil
  · intro heq
    rw [heq] at hperm
    exact hperm.eq_nil

variable {list : String} {R : Datum → Datum → Prop}

theorem ReplacedUnder.under_eq (h : ReplacedUnder list R members members') (hne : key ≠ list) :
    under key members' = under key members := by
  induction h with
  | nil => rfl
  | @cons m m' ms ms' hm _ ih =>
    obtain ⟨k, v⟩ := m
    obtain ⟨k', v'⟩ := m'
    obtain ⟨hk, hv⟩ := hm
    dsimp only at hk hv
    subst hk
    by_cases hkey : k = key
    · subst hkey
      rcases hv with rfl | ⟨heq, -⟩
      · rw [under_cons_self, under_cons_self, ih]
      · exact absurd heq hne
    · rw [under_cons_ne hkey, under_cons_ne hkey, ih]

/-- Under the key there are as many values as before, each the same or with related elements. -/
theorem ReplacedUnder.under_list (h : ReplacedUnder list R members members') :
    List.Forall₂ (fun v v' => v = v' ∨ ∃ items items', v = .seq items ∧ v' = .seq items' ∧
      List.Forall₂ R items items') (under list members) (under list members') := by
  induction h with
  | nil => exact .nil
  | @cons m m' ms ms' hm _ ih =>
    obtain ⟨k, v⟩ := m
    obtain ⟨k', v'⟩ := m'
    obtain ⟨hk, hv⟩ := hm
    dsimp only at hk hv
    subst hk
    by_cases hkey : k = list
    · subst hkey
      rw [under_cons_self, under_cons_self]
      refine .cons ?_ ih
      rcases hv with heq | ⟨-, hitems⟩
      · exact .inl heq
      · exact .inr hitems
    · rw [under_cons_ne hkey, under_cons_ne hkey]
      exact ih

end Others

/-! ## Fields -/

/-- The values under the key of the field make `x` of it: one value that is read as `x`, or none if
`x` stands for a missing one. -/
def Field.Gives (f : Field) (source : Source) (room : Nat) (vs : List Datum) (x : f.Value) : Prop :=
  (vs = [] ∧ f.absent = some x) ∨ ∃ v, vs = [v] ∧ f.read source room v.toTree = .ok x

/-- The values that are still to come under the key of the field make `x` of its slot. -/
def Field.Completes (f : Field) (source : Source) (room : Nat) (slot : Option f.Value)
    (vs : List Datum) (x : f.Value) : Prop :=
  match slot with
  | none => f.Gives source room vs x
  | some y => vs = [] ∧ y = x

/-- The values under its key make of every field what it is to have. -/
def Given (source : Source) (room : Nat) (members : List (String × Datum)) :
    (fields : List Field) → Values fields → Prop
  | [], _ => True
  | f :: fields, (x, xs) =>
    f.Gives source room (under f.key members) x ∧ Given source room members fields xs

/-- The members that are still to come make of every slot what it is to have. -/
def Completed (source : Source) (room : Nat) (members : List (String × Datum)) :
    (fields : List Field) → Slots fields → Values fields → Prop
  | [], _, _ => True
  | f :: fields, (slot, slots), (x, xs) =>
    f.Completes source room slot (under f.key members) x ∧
      Completed source room members fields slots xs

section Records

variable {source : Source} {room : Nat} {members : List (String × Datum)} {fields : List Field}
  {slots : Slots fields} {xs : Values fields}

theorem Field.gives_cons_iff {f : Field} {v : Datum} {vs : List Datum} {x : f.Value} :
    f.Gives source room (v :: vs) x ↔ vs = [] ∧ f.read source room v.toTree = .ok x := by
  unfold Gives
  simp

/-- A key that no field has changes nothing. -/
theorem completed_cons_of_not_mem {key : String} (v : Datum) (h : key ∉ fields.map Field.key) :
    Completed source room ((key, v) :: members) fields slots xs ↔
      Completed source room members fields slots xs := by
  induction fields with
  | nil => exact Iff.rfl
  | cons f fields ih =>
    obtain ⟨slot, slots⟩ := slots
    obtain ⟨x, xs⟩ := xs
    rw [List.map_cons, List.mem_cons, not_or] at h
    unfold Completed
    rw [under_cons_ne h.1, ih h.2]

/-- Before the first member every slot is empty. -/
theorem completed_empty_iff :
    Completed source room members fields (Slots.empty fields) xs ↔
      Given source room members fields xs := by
  induction fields with
  | nil => exact Iff.rfl
  | cons f fields ih =>
    obtain ⟨x, xs⟩ := xs
    exact and_congr_right fun _ => ih

/-- After the last member every slot has its value. -/
theorem finish_ok_iff :
    Slots.finish fields slots = .ok xs ↔ Completed source room [] fields slots xs := by
  induction fields with
  | nil => exact ⟨fun _ => trivial, fun _ => rfl⟩
  | cons f fields ih =>
    obtain ⟨slot, slots⟩ := slots
    obtain ⟨x, xs⟩ := xs
    have hslot : f.Completes source room slot (under f.key []) x ↔ slot.or f.absent = some x := by
      cases slot with
      | none => simp [Field.Completes, Field.Gives, under]
      | some y => simp [Field.Completes, under]
    unfold Completed
    rw [hslot, ← ih, Slots.finish]
    cases slot.or f.absent with
    | none => exact ⟨nofun, fun h => nomatch h.1⟩
    | some y =>
      show (Slots.finish fields slots >>= fun rest => pure (y, rest)) = _ ↔ _
      rw [bind_ok_iff]
      constructor
      · rintro ⟨rest, hrest, heq⟩
        cases heq
        exact ⟨rfl, hrest⟩
      · rintro ⟨heq, hrest⟩
        cases heq
        exact ⟨xs, hrest, rfl⟩

/-- One member goes to the slot of its key, if there is one. -/
theorem put_ok_iff (hfields : (fields.map Field.key).Nodup) {key : String} {v : Datum} :
    (∃ put?, Slots.put source room key v.toTree fields slots = .ok put? ∧
      Completed source room members fields (put?.getD slots) xs) ↔
      Completed source room ((key, v) :: members) fields slots xs := by
  induction fields with
  | nil => exact ⟨fun _ => trivial, fun _ => ⟨none, rfl, trivial⟩⟩
  | cons f fields ih =>
    obtain ⟨slot, slots⟩ := slots
    obtain ⟨x, xs⟩ := xs
    rw [List.map_cons, List.nodup_cons] at hfields
    by_cases hkey : key = f.key
    · subst hkey
      unfold Completed
      rw [under_cons_self, completed_cons_of_not_mem v hfields.1, Slots.put, if_pos rfl]
      cases slot with
      | some y =>
        -- a second value is a fault
        constructor
        · rintro ⟨put?, hput, -⟩
          cases hput
        · rintro ⟨⟨hnone, -⟩, -⟩
          cases hnone
      | none =>
        simp only [Option.isSome_none, Bool.false_eq_true, if_false, Field.Completes,
          Field.gives_cons_iff]
        constructor
        · rintro ⟨put?, hput, hrest⟩
          obtain ⟨y, hread, heq⟩ := bind_ok_iff.1 hput
          cases heq
          obtain ⟨⟨hnone, rfl⟩, hrest⟩ := hrest
          exact ⟨⟨hnone, hread⟩, hrest⟩
        · rintro ⟨⟨hnone, hread⟩, hrest⟩
          refine ⟨some (some x, slots), bind_ok_iff.2 ⟨x, hread, rfl⟩, ⟨hnone, rfl⟩, hrest⟩
    · unfold Completed
      rw [under_cons_ne hkey, Slots.put, if_neg hkey, ← ih hfields.2]
      constructor
      · rintro ⟨put?, hput, hslot⟩
        obtain ⟨rest?, hrest, heq⟩ := bind_ok_iff.1 hput
        cases rest? with
        | none =>
          cases heq
          exact ⟨hslot.1, none, hrest, hslot.2⟩
        | some rest =>
          cases heq
          exact ⟨hslot.1, some rest, hrest, hslot.2⟩
      · rintro ⟨hslot, rest?, hrest, hcompleted⟩
        cases rest? with
        | none => exact ⟨none, bind_ok_iff.2 ⟨none, hrest, rfl⟩, hslot, hcompleted⟩
        | some rest =>
          exact ⟨some (slot, rest), bind_ok_iff.2 ⟨some rest, hrest, rfl⟩, hslot, hcompleted⟩

/-- **Members are taken one after the other.** -/
theorem readMembersWith_ok_iff (hfields : (fields.map Field.key).Nodup) :
    (readMembersWith source room fields slots (Datum.membersTree members) >>=
      Slots.finish fields) = .ok xs ↔ Completed source room members fields slots xs := by
  induction members generalizing slots with
  | nil => exact finish_ok_iff
  | cons m members ih =>
    obtain ⟨key, v⟩ := m
    rw [← put_ok_iff hfields, Datum.membersTree, readMembersWith, bind_assoc, bind_ok_iff]
    refine exists_congr fun put? => and_congr_right fun _ => ?_
    rw [← ih]
    cases put? with
    | some slots' => exact Iff.rfl
    | none =>
      have hproceed : proceed v.toTree.passStop = .ok () := by rw [v.passStop_toTree]; rfl
      rw [hproceed]
      exact Iff.rfl

/-- **Which objects are read as a record**: those that give every field its value. -/
theorem readRecord_ok_iff (what : String) (hfields : (fields.map Field.key).Nodup) :
    readRecord what fields source (room + 1) (Datum.map members).toTree = .ok xs ↔
      Given source room members fields xs := by
  rw [← completed_empty_iff, ← readMembersWith_ok_iff hfields]
  exact Iff.rfl

end Records

/-! ## Fields of common kinds -/

section Readers

variable {source : Source} {room : Nat} {v : Datum} {vs : List Datum}

theorem readText_ok_iff {s : String} : readText source room v.toTree = .ok s ↔ v = .text s := by
  cases v with
  | text s' =>
    show Except.ok s' = _ ↔ _
    rw [Except.ok.injEq, Datum.text.injEq]
  | real x =>
    rw [Datum.toTree]
    cases x.value <;> exact ⟨nofun, nofun⟩
  | _ => exact ⟨nofun, nofun⟩

/-- Only whole numbers are read as such: all others have a fraction or an exponent. -/
theorem readRange_ok_iff {low high n : Int} {expected : String} :
    readRange low high expected source room v.toTree = .ok n ↔
      v = .int n ∧ low ≤ n ∧ n ≤ high := by
  cases v with
  | int m =>
    show (if low ≤ m ∧ m ≤ high then Except.ok m
      else Except.error (Fault.outOfRange m expected)) = _ ↔ _
    rw [Datum.int.injEq]
    split
    · rename_i hrange
      rw [Except.ok.injEq]
      constructor
      · rintro rfl
        exact ⟨rfl, hrange⟩
      · rintro ⟨rfl, -⟩
        rfl
    · rename_i hrange
      refine ⟨nofun, ?_⟩
      rintro ⟨rfl, h⟩
      exact absurd h hrange
  | real x =>
    rw [Datum.toTree]
    cases x.value <;> exact ⟨nofun, nofun⟩
  | _ => exact ⟨nofun, nofun⟩

theorem readInt32_ok_iff {n : Int32} :
    readInt32 source room v.toTree = .ok n ↔ v = .int n.toInt := by
  have hlow : Int32.minValue.toInt = -2147483648 := by decide
  have hhigh : Int32.maxValue.toInt = 2147483647 := by decide
  have hread : readInt32 source room v.toTree =
      (readRange Int32.minValue.toInt Int32.maxValue.toInt "i32" source room v.toTree >>=
        fun m => pure (Int32.ofInt m)) := by
    unfold readInt32
    cases readRange Int32.minValue.toInt Int32.maxValue.toInt "i32" source room v.toTree <;> rfl
  rw [hread, bind_ok_iff]
  constructor
  · rintro ⟨m, hm, heq⟩
    obtain ⟨rfl, hmin, hmax⟩ := readRange_ok_iff.1 hm
    cases heq
    rw [Int32.toInt_ofInt_of_le (by omega) (by omega)]
  · rintro rfl
    have hmin := n.le_toInt
    have hmax := n.toInt_lt
    refine ⟨n.toInt, readRange_ok_iff.2 ⟨rfl, by omega, by omega⟩, ?_⟩
    exact congrArg Except.ok (Int32.ofInt_toInt n)

theorem readItemsWith_ok_iff {α : Type} {read : Tree → Result α} {items : List Datum}
    {xs : List α} :
    readItemsWith read (Datum.itemsTree items) = .ok xs ↔
      List.Forall₂ (fun v x => read v.toTree = .ok x) items xs := by
  induction items generalizing xs with
  | nil =>
    rw [List.forall₂_nil_left_iff]
    show Except.ok [] = Except.ok xs ↔ _
    rw [Except.ok.injEq, eq_comm]
  | cons v items ih =>
    rw [Datum.itemsTree, readItemsWith, bind_ok_iff, List.forall₂_cons_left_iff]
    refine exists_congr fun x => ?_
    constructor
    · rintro ⟨hx, h⟩
      obtain ⟨rest, hrest, heq⟩ := bind_ok h
      cases heq
      exact ⟨rest, hx, ih.1 hrest, rfl⟩
    · rintro ⟨rest, hx, hrest, rfl⟩
      exact ⟨hx, bind_ok_iff.2 ⟨rest, ih.2 hrest, rfl⟩⟩

/-- **Which data are read as a list**: arrays of which every element is read. -/
theorem readList_ok_iff {α : Type} {read : Reader α} {xs : List α} :
    readList read source (room + 1) v.toTree = .ok xs ↔
      ∃ items, v = .seq items ∧
        List.Forall₂ (fun v x => read source room v.toTree = .ok x) items xs := by
  cases v with
  | seq items =>
    have hread : readList read source (room + 1) (Datum.seq items).toTree =
        readItemsWith (read source room) (Datum.itemsTree items) := rfl
    rw [hread, readItemsWith_ok_iff]
    constructor
    · intro h
      exact ⟨items, rfl, h⟩
    · rintro ⟨items', heq, h⟩
      cases heq
      exact h
  | real x =>
    rw [Datum.toTree]
    cases x.value <;> exact ⟨nofun, nofun⟩
  | _ => exact ⟨nofun, nofun⟩

/-- The values make a list: one array whose elements are related to those of the list, or none if
the list is empty. -/
def Lists {α : Type} (R : Datum → α → Prop) (vs : List Datum) (xs : List α) : Prop :=
  (vs = [] ∧ xs = []) ∨ ∃ items, vs = [.seq items] ∧ List.Forall₂ R items xs

theorem forall₂_congr_of_mem {α : Type} {R R' : Datum → α → Prop} {items : List Datum}
    {xs : List α} (h : ∀ v ∈ items, ∀ x, R v x ↔ R' v x) :
    List.Forall₂ R items xs ↔ List.Forall₂ R' items xs := by
  induction items generalizing xs with
  | nil => rw [List.forall₂_nil_left_iff, List.forall₂_nil_left_iff]
  | cons v items ih =>
    obtain ⟨hv, hitems⟩ := List.forall_mem_cons.1 h
    rw [List.forall₂_cons_left_iff, List.forall₂_cons_left_iff]
    refine exists_congr fun x => exists_congr fun rest => ?_
    rw [hv x, ih hitems]

/-- Every element of one list is related to one of the other. -/
theorem exists_of_forall₂ {α β : Type} {R : α → β → Prop} {items : List α} {xs : List β}
    (h : List.Forall₂ R items xs) {v : α} (hv : v ∈ items) : ∃ x ∈ xs, R v x := by
  induction h with
  | nil => cases hv
  | cons hx _ ih =>
    rcases List.mem_cons.1 hv with rfl | hv
    · exact ⟨_, List.mem_cons_self, hx⟩
    · obtain ⟨x, hmem, hx⟩ := ih hv
      exact ⟨x, List.mem_cons_of_mem _ hmem, hx⟩

/-- Only the elements of the array matter. -/
theorem lists_congr {α : Type} {R R' : Datum → α → Prop} {xs : List α}
    (h : ∀ items, vs = [.seq items] → ∀ v ∈ items, ∀ x, R v x ↔ R' v x) :
    Lists R vs xs ↔ Lists R' vs xs := by
  refine or_congr Iff.rfl (exists_congr fun items => and_congr_right fun hitems => ?_)
  exact forall₂_congr_of_mem (h items hitems)

/-- Two values under one key make no list. -/
theorem not_lists_of_two {α : Type} {R : Datum → α → Prop} {w : Datum} {xs : List α} :
    ¬ Lists R (v :: w :: vs) xs := by
  rintro (⟨h, -⟩ | ⟨items, h, -⟩)
  · cases h
  · cases h

theorem forall₂_iff_of_forall₂ {α : Type} {R : Datum → Datum → Prop} {Q : Datum → α → Prop}
    (hR : ∀ v v', R v v' → ∀ x, Q v x ↔ Q v' x) {items items' : List Datum}
    (h : List.Forall₂ R items items') {xs : List α} :
    List.Forall₂ Q items xs ↔ List.Forall₂ Q items' xs := by
  induction h generalizing xs with
  | nil => exact Iff.rfl
  | cons hv _ ih =>
    rw [List.forall₂_cons_left_iff, List.forall₂_cons_left_iff]
    refine exists_congr fun x => exists_congr fun rest => ?_
    rw [hR _ _ hv x, ih]

/-- A list is the same whatever the order of the members in its elements and around it. -/
theorem lists_iff_of_rearranged {α : Type} {list : String} {R : Datum → Datum → Prop}
    {Q : Datum → α → Prop} {Known : String → Prop} {members mid members' : List (String × Datum)}
    (hreplaced : ReplacedUnder list R members mid) (hextends : Extends Known mid members')
    (hlist : Known list) (hR : ∀ v v', R v v' → ∀ x, Q v x ↔ Q v' x) (xs : List α) :
    Lists Q (under list members) xs ↔ Lists Q (under list members') xs := by
  have hinside := hreplaced.under_list
  have hreplace : Lists Q (under list members) xs ↔ Lists Q (under list mid) xs := by
    generalize under list members = vs at hinside
    generalize under list mid = vs' at hinside
    cases hinside with
    | nil => exact Iff.rfl
    | @cons v v' vs vs' hv hrest =>
      cases hrest with
      | cons hw _ => exact iff_of_false not_lists_of_two not_lists_of_two
      | nil =>
        rcases hv with rfl | ⟨items, items', rfl, rfl, hitems⟩
        · exact Iff.rfl
        · have hiff : List.Forall₂ Q items xs ↔ List.Forall₂ Q items' xs :=
            forall₂_iff_of_forall₂ hR hitems
          simp [Lists, hiff]
  rw [hreplace]
  unfold Lists
  rw [hextends.under_eq_nil_iff hlist]
  refine or_congr Iff.rfl (exists_congr fun items => ?_)
  rw [hextends.under_eq_singleton_iff hlist]

theorem gives_text {key s : String} :
    (textField key).Gives source room vs s ↔ vs = [.text s] := by
  unfold Field.Gives
  constructor
  · rintro (⟨-, habsent⟩ | ⟨v, rfl, hread⟩)
    · cases habsent
    · rw [(@readText_ok_iff source room v s).1 hread]
  · rintro rfl
    exact .inr ⟨_, rfl, @readText_ok_iff source room _ _ |>.2 rfl⟩

theorem gives_count {key : String} {n : Int32} :
    (countField key).Gives source room vs n ↔ vs = [.int n.toInt] := by
  unfold Field.Gives
  constructor
  · rintro (⟨-, habsent⟩ | ⟨v, rfl, hread⟩)
    · cases habsent
    · rw [readInt32_ok_iff.1 hread]
  · rintro rfl
    exact .inr ⟨_, rfl, @readInt32_ok_iff source room _ _ |>.2 rfl⟩

theorem gives_list {α : Type} {key : String} {read : Reader α} {xs : List α} :
    (listField key read).Gives source (room + 1) vs xs ↔
      Lists (fun v x => read source room v.toTree = .ok x) vs xs := by
  unfold Field.Gives Lists
  constructor
  · rintro (⟨rfl, habsent⟩ | ⟨v, rfl, hread⟩)
    · exact .inl ⟨rfl, (Option.some.inj habsent).symm⟩
    · obtain ⟨items, rfl, hitems⟩ := readList_ok_iff.1 hread
      exact .inr ⟨items, rfl, hitems⟩
  · rintro (⟨rfl, rfl⟩ | ⟨items, rfl, hitems⟩)
    · exact .inl ⟨rfl, rfl⟩
    · exact .inr ⟨_, rfl, readList_ok_iff.2 ⟨items, rfl, hitems⟩⟩

end Readers

end FuzzLedger.Json
