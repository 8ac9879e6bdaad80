import FuzzLedger.Proofs.JsonObject
import FuzzLedger.Proofs.JsonText

/-!
# Written values are read as what they spell

`Spells v read depth x` says that the value `v`, which nests at most `depth` levels, is read as `x`:
as it is and with its keys sorted (`Value.arranged`), straight from a text and from a value read
before.  Then the text of `v` is read as `x` too (`Spells.readDocument_render`).

* `spells_text`, `spells_id`, `spells_count`, `spells_size` — single values.
* `spells_list` — lists, element by element.
* `spells_record` — records, whose members may stand in any order; `spells_among` lets members stand
  beside them that no field asks for, and `spells_member` is for a single one.
* `yielded_of_readRecord` — the other way round: what is read as a record has only values that its
  fields can yield.

A record that is written has one member for each of its fields (`Filled`), so the values under the
keys are what `readRecord_ok_iff` asks for.
-/

set_option autoImplicit false

namespace FuzzLedger.Json

/-! ## Sorted and unsorted values -/

namespace Value

/-- A value as it is, or with its keys sorted at every level. -/
def arranged (sorted : Bool) (v : Value) : Value := if sorted then v.sortKeys else v

@[simp] theorem arranged_int (sorted : Bool) (n : Int) :
    (Value.int n).arranged sorted = .int n := by
  cases sorted <;> simp [arranged, sortKeys]

@[simp] theorem arranged_text (sorted : Bool) (s : String) :
    (Value.text s).arranged sorted = .text s := by
  cases sorted <;> simp [arranged, sortKeys]

@[simp] theorem arranged_bool (sorted : Bool) (b : Bool) :
    (Value.bool b).arranged sorted = .bool b := by
  cases sorted <;> simp [arranged, sortKeys]

@[simp] theorem arranged_null (sorted : Bool) : Value.null.arranged sorted = .null := by
  cases sorted <;> simp [arranged, sortKeys]

theorem sortItems_eq_map (items : List Value) : sortItems items = items.map sortKeys := by
  induction items with
  | nil => rfl
  | cons v rest ih => rw [sortItems, ih, List.map_cons]

@[simp] theorem arranged_arr (sorted : Bool) (items : List Value) :
    (Value.arr items).arranged sorted = .arr (items.map (arranged sorted)) := by
  cases sorted
  · have hid : arranged false = id := rfl
    rw [hid, List.map_id]
    rfl
  · have hsort : arranged true = sortKeys := rfl
    rw [hsort, ← sortItems_eq_map]
    rfl

theorem insertKey_perm (key : String) (value : Value) (members : List (String × Value)) :
    (insertKey key value members).Perm ((key, value) :: members) := by
  induction members with
  | nil => exact .refl _
  | cons m rest ih =>
    obtain ⟨k, v⟩ := m
    rw [insertKey]
    split
    · exact (ih.cons (k, v)).trans (.swap ..)
    · exact .refl _

theorem sortMembers_perm (members : List (String × Value)) :
    (sortMembers members).Perm (members.map fun m => (m.1, m.2.sortKeys)) := by
  induction members with
  | nil => exact .refl _
  | cons m rest ih =>
    obtain ⟨k, v⟩ := m
    rw [sortMembers, List.map_cons]
    exact (insertKey_perm ..).trans (ih.cons _)

/-- The members of an arranged object are its members, arranged, in some order. -/
theorem arranged_obj (sorted : Bool) (members : List (String × Value)) :
    ∃ members', (Value.obj members).arranged sorted = .obj members' ∧
      members'.Perm (members.map fun m => (m.1, m.2.arranged sorted)) := by
  cases sorted
  · refine ⟨members, rfl, ?_⟩
    have hid : (fun m : String × Value => (m.1, m.2.arranged false)) = id := rfl
    rw [hid, List.map_id]
  · exact ⟨sortMembers members, rfl, sortMembers_perm members⟩

end Value

open Value

theorem Writable.arranged {depth : Nat} {v : Value} (h : Writable depth v) (sorted : Bool) :
    Writable depth (v.arranged sorted) := by
  induction h with
  | null => rw [arranged_null]; exact .null
  | bool b => rw [arranged_bool]; exact .bool b
  | int hn => rw [arranged_int]; exact .int hn
  | text s => rw [arranged_text]; exact .text s
  | arr _ ih =>
    rw [arranged_arr]
    refine .arr fun v hv => ?_
    obtain ⟨w, hw, rfl⟩ := List.mem_map.1 hv
    exact ih w hw
  | @obj depth members _ ih =>
    obtain ⟨members', heq, hperm⟩ := arranged_obj sorted members
    rw [heq]
    refine .obj fun m hm => ?_
    obtain ⟨n, hn, rfl⟩ := List.mem_map.1 (hperm.mem_iff.1 hm)
    exact ih n hn

theorem Writable.mono {depth depth' : Nat} {v : Value} (h : Writable depth v)
    (hle : depth ≤ depth') : Writable depth' v := by
  induction h generalizing depth' with
  | null => exact .null
  | bool b => exact .bool b
  | int hn => exact .int hn
  | text s => exact .text s
  | arr _ ih =>
    obtain ⟨depth', rfl⟩ : ∃ n, depth' = n + 1 := ⟨depth' - 1, by omega⟩
    exact .arr fun v hv => ih v hv (by omega)
  | obj _ ih =>
    obtain ⟨depth', rfl⟩ : ∃ n, depth' = n + 1 := ⟨depth' - 1, by omega⟩
    exact .obj fun m hm => ih m hm (by omega)

/-! ## What a value spells -/

/-- The value is read as `x`, however its keys are arranged and wherever it comes from. -/
structure Spells {α : Type} (v : Value) (read : Reader α) (depth : Nat) (x : α) : Prop where
  writable : Writable depth v
  reads : ∀ sorted source room, depth ≤ room → read source room (v.arranged sorted).toTree = .ok x

namespace Spells

variable {α β : Type} {v : Value} {read : Reader α} {depth : Nat} {x : α}

theorem mono (h : Spells v read depth x) {depth' : Nat} (hle : depth ≤ depth') :
    Spells v read depth' x where
  writable := h.writable.mono hle
  reads sorted source room hroom := h.reads sorted source room (Nat.le_trans hle hroom)

/-- Something that is made of what was read. -/
theorem andThen (h : Spells v read depth x) {next : α → Result β} {y : β} (hnext : next x = .ok y) :
    Spells v (fun source room t => read source room t >>= next) depth y where
  writable := h.writable
  reads sorted source room hroom := by
    rw [h.reads sorted source room hroom]
    exact hnext

/-- Something that is read from the same value after it. -/
theorem bind (h : Spells v read depth x) {next : α → Reader β} {y : β}
    (hnext : Spells v (next x) depth y) :
    Spells v (fun source room t => read source room t >>= fun a => next a source room t) depth y
    where
  writable := h.writable
  reads sorted source room hroom := by
    rw [h.reads sorted source room hroom]
    exact hnext.reads sorted source room hroom

/-- **What a value spells is read from its text.** -/
theorem readDocument_render (h : Spells v read depth x) (hdepth : depth ≤ maxLevels)
    (sorted : Bool) : readDocument read (v.arranged sorted).render = .ok x := by
  simp only [readDocument, (h.writable.arranged sorted).ofText_render,
    h.reads sorted .text maxLevels hdepth]
  rfl

end Spells

section Single

variable {depth : Nat}

theorem spells_text (s : String) : Spells (.text s) readText depth s where
  writable := .text s
  reads sorted source room _ := by rw [arranged_text]; rfl

/-- An identifier: a signed number of 64 bits. -/
def IsId (n : Int) : Prop := Int64.minValue.toInt ≤ n ∧ n ≤ Int64.maxValue.toInt

instance (n : Int) : Decidable (IsId n) :=
  inferInstanceAs (Decidable (Int64.minValue.toInt ≤ n ∧ n ≤ Int64.maxValue.toInt))

theorem IsId.isWord {n : Int} (h : IsId n) : IsWord n := by
  have hle : Int64.maxValue.toInt < UInt64.size := by decide
  exact ⟨h.1, Int.lt_of_le_of_lt h.2 hle⟩

theorem spells_id {n : Int} (h : IsId n) : Spells (.int n) readInt64 depth n where
  writable := .int h.isWord
  reads sorted source room _ := by
    rw [arranged_int, toTree, readInt64, readRange]
    exact if_pos h

theorem isId_int32 (n : Int32) : IsId n.toInt := by
  have hlow : Int64.minValue.toInt = -9223372036854775808 := by decide
  have hhigh : Int64.maxValue.toInt = 9223372036854775807 := by decide
  have hmin := n.le_toInt
  have hmax := n.toInt_lt
  unfold IsId
  omega

theorem spells_count (n : Int32) : Spells (.int n.toInt) readInt32 depth n where
  writable := .int (isId_int32 n).isWord
  reads sorted source room _ := by
    have hlow : Int32.minValue.toInt = -2147483648 := by decide
    have hhigh : Int32.maxValue.toInt = 2147483647 := by decide
    have hmin := n.le_toInt
    have hmax := n.toInt_lt
    have hrange : Int32.minValue.toInt ≤ n.toInt ∧ n.toInt ≤ Int32.maxValue.toInt := by omega
    rw [arranged_int, toTree, readInt32, readRange, if_pos hrange]
    exact congrArg Except.ok (Int32.ofInt_toInt n)

theorem spells_size {n : Nat} (h : n < UInt64.size) : Spells (.int n) readSize depth n where
  writable := .int ⟨by have : Int64.minValue.toInt < 0 := by decide
                       omega, by omega⟩
  reads sorted source room _ := by
    have hrange : 0 ≤ (n : Int) ∧ (n : Int) ≤ (UInt64.size : Int) - 1 := by omega
    rw [arranged_int, toTree, readSize, readRange, if_pos hrange]
    rfl

end Single

/-! ## Lists -/

theorem readItemsWith_map {α β : Type} {read : Tree → Result β} {toTree : α → Value} {f : α → β}
    {xs : List α} (h : ∀ x ∈ xs, read (toTree x).toTree = .ok (f x)) :
    readItemsWith read (itemsTree (xs.map toTree)) = .ok (xs.map f) := by
  induction xs with
  | nil => rfl
  | cons x xs ih =>
    rw [List.map_cons, itemsTree, readItemsWith, h x List.mem_cons_self,
      ih fun y hy => h y (List.mem_cons_of_mem _ hy)]
    rfl

/-- A list is spelled element by element. -/
theorem spells_list {α β : Type} {toJson : α → Value} {read : Reader β} {f : α → β} {depth : Nat}
    {xs : List α} (h : ∀ x ∈ xs, Spells (toJson x) read depth (f x)) :
    Spells (.arr (xs.map toJson)) (readList read) (depth + 1) (xs.map f) where
  writable := by
    refine .arr fun v hv => ?_
    obtain ⟨x, hx, rfl⟩ := List.mem_map.1 hv
    exact (h x hx).writable
  reads sorted source room hroom := by
    obtain ⟨room, rfl⟩ : ∃ n, room = n + 1 := ⟨room - 1, by omega⟩
    rw [arranged_arr, List.map_map, toTree]
    exact readItemsWith_map fun x hx => (h x hx).reads sorted source room (by omega)

/-! ## Records -/

/-- Every field has a member, which is read as its value. -/
def Filled (source : Source) (room : Nat) (members : List (String × Value)) :
    (fields : List Field) → Values fields → Prop
  | [], _ => True
  | f :: fields, (x, xs) =>
    (∃ v, (f.key, v) ∈ members ∧ f.read source room v.toTree = .ok x) ∧
      Filled source room members fields xs

theorem under_membersData {members : List (String × Value)} (hkeys : (members.map Prod.fst).Nodup)
    {key : String} {v : Value} (hmem : (key, v) ∈ members) :
    under key (membersData members) = [v.toDatum] := by
  induction members with
  | nil => cases hmem
  | cons m members ih =>
    obtain ⟨k, w⟩ := m
    rw [List.map_cons, List.nodup_cons] at hkeys
    rw [membersData]
    rcases List.mem_cons.1 hmem with heq | hmem
    · cases heq
      have hothers : under key (membersData members) = [] := by
        rw [under_eq_nil_iff, membersData_eq_map, List.map_map]
        refine List.forall_mem_map.2 fun n hn heq => hkeys.1 ?_
        exact List.mem_map.2 ⟨n, hn, heq⟩
      rw [under_cons_self, hothers]
    · have hne : k ≠ key := fun heq => hkeys.1 (List.mem_map.2 ⟨_, hmem, heq.symm⟩)
      rw [under_cons_ne hne]
      exact ih hkeys.2 hmem

theorem Filled.given {source : Source} {room : Nat} {members : List (String × Value)}
    (hkeys : (members.map Prod.fst).Nodup) {fields : List Field} {xs : Values fields}
    (h : Filled source room members fields xs) :
    Given source room (membersData members) fields xs := by
  induction fields with
  | nil => trivial
  | cons f fields ih =>
    obtain ⟨x, xs⟩ := xs
    obtain ⟨⟨v, hv, hread⟩, hrest⟩ := h
    refine ⟨.inr ⟨v.toDatum, under_membersData hkeys hv, ?_⟩, ih hrest⟩
    rw [toTree_toDatum]
    exact hread

/-- A record is read from an object that has a member for each field. -/
theorem readRecord_membersTree (what : String) {source : Source} {room : Nat}
    {members : List (String × Value)} (hkeys : (members.map Prod.fst).Nodup) {fields : List Field}
    {xs : Values fields} (hfilled : Filled source room members fields xs)
    (hfields : (fields.map Field.key).Nodup) :
    readRecord what fields source (room + 1) (.map (membersTree members)) = .ok xs := by
  rw [← membersTree_membersData]
  exact (readRecord_ok_iff what hfields).2 (hfilled.given hkeys)

/-- Every field has a member that spells its value. -/
def Spelled (depth : Nat) (members : List (String × Value)) :
    (fields : List Field) → Values fields → Prop
  | [], _ => True
  | f :: fields, (x, xs) =>
    (∃ v, (f.key, v) ∈ members ∧ Spells v f.read depth x) ∧ Spelled depth members fields xs

namespace Spelled

variable {depth : Nat} {members : List (String × Value)} {fields : List Field} {xs : Values fields}

theorem mono {more : List (String × Value)} (h : Spelled depth members fields xs)
    (hsub : ∀ m ∈ members, m ∈ more) : Spelled depth more fields xs := by
  induction fields with
  | nil => trivial
  | cons f fields ih =>
    obtain ⟨⟨v, hv, hspells⟩, hrest⟩ := h
    exact ⟨⟨v, hsub _ hv, hspells⟩, ih hrest⟩

theorem nil : Spelled depth members [] () := trivial

/-- The members of a record stand in the order of its fields. -/
theorem cons {f : Field} {v : Value} {x : f.Value} (h : Spells v f.read depth x)
    (hrest : Spelled depth members fields xs) :
    Spelled depth ((f.key, v) :: members) (f :: fields) (x, xs) :=
  ⟨⟨v, .head _, h⟩, hrest.mono fun _ hm => .tail _ hm⟩

theorem filled (h : Spelled depth members fields xs) (sorted : Bool)
    {members' : List (String × Value)}
    (hsub : ∀ m ∈ members, m.1 ∈ fields.map Field.key → (m.1, m.2.arranged sorted) ∈ members')
    (source : Source) {room : Nat} (hroom : depth ≤ room) :
    Filled source room members' fields xs := by
  induction fields with
  | nil => trivial
  | cons f fields ih =>
    obtain ⟨⟨v, hv, hspells⟩, hrest⟩ := h
    refine ⟨⟨_, hsub _ hv List.mem_cons_self, hspells.reads sorted source room hroom⟩, ?_⟩
    exact ih hrest fun m hm hkey => hsub m hm (List.mem_cons_of_mem _ hkey)

theorem writable (h : Spelled depth members fields xs) (hkeys : (members.map Prod.fst).Nodup)
    {m : String × Value} (hm : m ∈ members) (hfield : m.1 ∈ fields.map Field.key) :
    Writable depth m.2 := by
  induction fields with
  | nil => cases hfield
  | cons f fields ih =>
    obtain ⟨⟨v, hv, hspells⟩, hrest⟩ := h
    rcases List.mem_cons.1 hfield with heq | hfield
    · have hvalue : (f.key, v) = m := List.inj_on_of_nodup_map hkeys hv hm heq.symm
      exact hvalue ▸ hspells.writable
    · exact ih hrest hfield

end Spelled

theorem keys_of_perm {sorted : Bool} {members members' : List (String × Value)}
    (h : members'.Perm (members.map fun m => (m.1, m.2.arranged sorted))) :
    (members'.map Prod.fst).Perm (members.map Prod.fst) := by
  have hkeys := h.map Prod.fst
  rwa [List.map_map] at hkeys

/-- An object spells a record if each field has its member; there may be others beside them. -/
theorem spells_among (what : String) {depth : Nat} {members : List (String × Value)}
    {fields : List Field} {xs : Values fields} (hspelled : Spelled depth members fields xs)
    (hkeys : (members.map Prod.fst).Nodup) (hfields : (fields.map Field.key).Nodup)
    (hwritable : ∀ m ∈ members, Writable depth m.2) :
    Spells (.obj members) (readRecord what fields) (depth + 1) xs where
  writable := .obj hwritable
  reads sorted source room hroom := by
    obtain ⟨room, rfl⟩ : ∃ n, room = n + 1 := ⟨room - 1, by omega⟩
    obtain ⟨members', heq, hperm⟩ := arranged_obj sorted members
    rw [heq, toTree]
    refine readRecord_membersTree what ((keys_of_perm hperm).nodup_iff.2 hkeys)
      (hspelled.filled sorted (fun m hm _ => ?_) source (by omega)) hfields
    exact hperm.mem_iff.2 (List.mem_map_of_mem hm)

/-- **An object spells a record if its members are those of the fields.** -/
theorem spells_record (what : String) {depth : Nat} {members : List (String × Value)}
    {fields : List Field} {xs : Values fields} (hspelled : Spelled depth members fields xs)
    (hkeys : members.map Prod.fst = fields.map Field.key)
    (hfields : (fields.map Field.key).Nodup) :
    Spells (.obj members) (readRecord what fields) (depth + 1) xs := by
  have hnodup : (members.map Prod.fst).Nodup := hkeys ▸ hfields
  refine spells_among what hspelled hnodup hfields fun m hm => ?_
  exact hspelled.writable hnodup hm (hkeys ▸ List.mem_map_of_mem hm)

/-- Reads the one member with a key; the others are passed over. -/
def member {α : Type} (key : String) (read : Reader α) : Reader α := fun source room t =>
  match t with
  | .map _ => do
    let (x, _) ← readRecord "object" [{ key, Value := α, read }] source room t
    return x
  | t => t.unexpected "object"

/-- An object spells what its members spell. -/
theorem spells_member {α : Type} {key : String} {read : Reader α} {depth : Nat} {v : Value} {x : α}
    {members : List (String × Value)} (hmem : (key, v) ∈ members) (hspells : Spells v read depth x)
    (hkeys : (members.map Prod.fst).Nodup) (hwritable : ∀ m ∈ members, Writable depth m.2) :
    Spells (.obj members) (member key read) (depth + 1) x where
  writable := .obj hwritable
  reads sorted source room hroom := by
    have hrecord : Spells (.obj members) (readRecord "object" [{ key, Value := α, read }])
        (depth + 1) (x, ()) :=
      spells_among _ ⟨⟨v, hmem, hspells⟩, trivial⟩ hkeys (List.nodup_singleton _) hwritable
    have hread := hrecord.reads sorted source room hroom
    obtain ⟨members', heq, -⟩ := arranged_obj sorted members
    rw [heq, toTree] at hread ⊢
    simp only [member, hread]
    rfl

/-! ## What records can hold -/

/-- The values that a field can have: those it reads, and the one that stands for a missing one. -/
def Field.Yields (f : Field) (x : f.Value) : Prop :=
  f.absent = some x ∨ ∃ source room t, f.read source room t = .ok x

/-- Every value is one that its field can have. -/
def Yielded : (fields : List Field) → Values fields → Prop
  | [], _ => True
  | f :: fields, (x, xs) => f.Yields x ∧ Yielded fields xs

/-- Every slot that is filled has a value that its field can have. -/
def YieldedSoFar : (fields : List Field) → Slots fields → Prop
  | [], _ => True
  | f :: fields, (slot, slots) => (∀ x ∈ slot, f.Yields x) ∧ YieldedSoFar fields slots

theorem yieldedSoFar_empty (fields : List Field) : YieldedSoFar fields (Slots.empty fields) := by
  induction fields with
  | nil => trivial
  | cons f fields ih =>
    refine ⟨?_, ih⟩
    intro x hx
    cases hx

theorem yieldedSoFar_put {source : Source} {room : Nat} {key : String} {t : Tree}
    {fields : List Field} {slots slots' : Slots fields} (hslots : YieldedSoFar fields slots)
    (h : Slots.put source room key t fields slots = .ok (some slots')) :
    YieldedSoFar fields slots' := by
  induction fields with
  | nil => cases h
  | cons f fields ih =>
    obtain ⟨slot, slots⟩ := slots
    rw [Slots.put] at h
    split at h
    · split at h
      · cases h
      · obtain ⟨x, hx, h⟩ := bind_ok h
        cases h
        refine ⟨?_, hslots.2⟩
        intro y hy
        cases hy
        exact .inr ⟨source, room, t, hx⟩
    · obtain ⟨put?, hput, h⟩ := bind_ok h
      cases put? with
      | none => cases h
      | some slots'' =>
        cases h
        exact ⟨hslots.1, ih hslots.2 hput⟩

theorem yieldedSoFar_readMembersWith {source : Source} {room : Nat} {fields : List Field}
    {members : Members} {slots slots' : Slots fields} (hslots : YieldedSoFar fields slots)
    (h : readMembersWith source room fields slots members = .ok slots') :
    YieldedSoFar fields slots' := by
  fun_induction readMembersWith source room fields slots members with
  | case1 slots => cases h; exact hslots
  | case2 | case3 | case4 | case5 => cases h
  | case6 slots key value tail ih ih' =>
    obtain ⟨put?, hput, h⟩ := bind_ok h
    cases put? with
    | some slots'' => exact ih slots'' (yieldedSoFar_put hslots hput) h
    | none =>
      obtain ⟨-, -, h⟩ := bind_ok h
      exact ih' hslots h

theorem yielded_of_finish {fields : List Field} {slots : Slots fields} {xs : Values fields}
    (hslots : YieldedSoFar fields slots) (h : Slots.finish fields slots = .ok xs) :
    Yielded fields xs := by
  induction fields with
  | nil => trivial
  | cons f fields ih =>
    obtain ⟨slot, slots⟩ := slots
    rw [Slots.finish] at h
    split at h
    · rename_i x hslot
      obtain ⟨y, hy, h⟩ := bind_ok h
      cases hy
      obtain ⟨rest, hrest, h⟩ := bind_ok h
      cases h
      refine ⟨?_, ih hslots.2 hrest⟩
      rcases Option.or_eq_some_iff.1 hslot with hx | ⟨-, habsent⟩
      · exact hslots.1 x hx
      · exact .inl habsent
    · cases h

theorem yielded_of_readPositions {source : Source} {room : Nat} {expected : String}
    {fields : List Field} {count : Nat} {items rest : Items} {xs : Values fields}
    (h : readPositions source room expected fields count items = .ok (xs, rest)) :
    Yielded fields xs := by
  induction fields generalizing count items rest with
  | nil => trivial
  | cons f fields ih =>
    cases items with
    | more head tail =>
      obtain ⟨x, hx, h⟩ := bind_ok h
      obtain ⟨⟨xs', rest'⟩, hrest, h⟩ := bind_ok h
      cases h
      exact ⟨.inr ⟨source, room, head, hx⟩, ih hrest⟩
    | unclosed stop => cases h
    | dangling stop => cases h
    | done =>
      rw [readPositions] at h
      split at h
      · cases h
      · rename_i x habsent
        obtain ⟨⟨xs', rest'⟩, hrest, h⟩ := bind_ok h
        cases h
        exact ⟨.inl habsent, ih hrest⟩

/-- **What is read as a record has values that its fields can have.** -/
theorem yielded_of_readRecord {what : String} {fields : List Field} {source : Source} {room : Nat}
    {t : Tree} {xs : Values fields} (h : readRecord what fields source room t = .ok xs) :
    Yielded fields xs := by
  unfold readRecord at h
  split at h
  · obtain ⟨room, -, h⟩ := bind_ok h
    obtain ⟨slots, hslots, h⟩ := bind_ok h
    exact yielded_of_finish (yieldedSoFar_readMembersWith (yieldedSoFar_empty fields) hslots) h
  · obtain ⟨room, -, h⟩ := bind_ok h
    obtain ⟨⟨values, rest⟩, hvalues, h⟩ := bind_ok h
    obtain ⟨-, -, h⟩ := bind_ok h
    cases h
    exact yielded_of_readPositions hvalues
  · exact absurd h Tree.unexpected_ne_ok

theorem range_of_readRange {low high n : Int} {expected : String} (source : Source) (room : Nat)
    {t : Tree} (h : readRange low high expected source room t = .ok n) : low ≤ n ∧ n ≤ high := by
  unfold readRange at h
  split at h
  · split at h
    · cases h; assumption
    · cases h
  · exact absurd h Tree.unexpected_ne_ok

theorem Field.Yields.isId {key : String} {n : Int} (h : (idField key).Yields n) : IsId n := by
  rcases h with h | ⟨source, room, t, h⟩
  · cases h
  · exact range_of_readRange source room h

theorem Field.Yields.lt_size {key : String} {n : Nat} (h : (sizeField key).Yields n) :
    n < UInt64.size := by
  rcases h with h | ⟨source, room, t, h⟩
  · cases h
  · simp only [readSize] at h
    cases hread : readRange 0 (UInt64.size - 1) "usize" source room t with
    | error fault => rw [hread] at h; cases h
    | ok m =>
      rw [hread] at h
      cases h
      obtain ⟨hlow, hhigh⟩ := range_of_readRange source room hread
      omega

end FuzzLedger.Json
