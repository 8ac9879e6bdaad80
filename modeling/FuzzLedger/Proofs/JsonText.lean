import FuzzLedger.Proofs.JsonGrammar

/-!
# A written JSON value is read back

`Value.render` writes a value and `Document.ofText` reads any text into a tree.  Here the two are
put together: the text of a value is read as the tree of that value (`Value.toTree`), and nothing
follows it.

* `Writable` — values whose numbers have 64 bits, signed or unsigned, and which nest so many levels
  at most.
* `Writable.denotes` — the characters of a writable value denote it.  The induction is on the
  levels; a string is taken character by character (`escapeChar_cases`).
* `Writable.ofText_render` — hence the value is read from its text.
* `Writable.newline_not_mem_render` — a written value has no control characters, so it stands on one
  line.
-/

set_option autoImplicit false

namespace FuzzLedger.Json

/-! ## Strings -/

theorem unitDigits_unitDigits {n : Nat} (h : n < 0x20) : UnitDigits (unitDigits n) n := by
  have hdigits : ∀ n, n < 0x20 → Text.hexValue? (n / 16).digitChar = some (n / 16) ∧
      Text.hexValue? (n % 16).digitChar = some (n % 16) := by decide
  have hzero : Text.hexValue? '0' = some 0 := by decide
  obtain ⟨hhigh, hlow⟩ := hdigits n h
  have hunit := UnitDigits.mk hzero hzero hhigh hlow
  have hvalue : ((0 * 16 + 0) * 16 + n / 16) * 16 + n % 16 = n := by omega
  rwa [hvalue] at hunit

/-- How a character stands in a string: as a backslash and a letter for it, as a backslash and four
digits, or as it is. -/
theorem escapeChar_cases (c : Char) :
    (∃ letter, escapeChar c = ['\\', letter] ∧ escapeValue? letter = some c ∧ Printable letter) ∨
    (¬ Printable c ∧ escapeChar c = '\\' :: 'u' :: unitDigits c.toNat) ∨
    (c ≠ '"' ∧ c ≠ '\\' ∧ Printable c ∧ escapeChar c = [c]) := by
  unfold escapeChar
  split
  · subst_vars; exact .inl ⟨'"', rfl, rfl, by decide⟩
  split
  · subst_vars; exact .inl ⟨'\\', rfl, rfl, by decide⟩
  split
  · subst_vars; exact .inl ⟨'b', rfl, rfl, by decide⟩
  split
  · subst_vars; exact .inl ⟨'f', rfl, rfl, by decide⟩
  split
  · subst_vars; exact .inl ⟨'n', rfl, rfl, by decide⟩
  split
  · subst_vars; exact .inl ⟨'r', rfl, rfl, by decide⟩
  split
  · subst_vars; exact .inl ⟨'t', rfl, rfl, by decide⟩
  split
  · rename_i hcontrol
    exact .inr (.inl ⟨Nat.not_le.2 hcontrol, rfl⟩)
  · rename_i hquote hbackslash _ _ _ _ _ hcontrol
    exact .inr (.inr ⟨hquote, hbackslash, Nat.not_lt.1 hcontrol, rfl⟩)

/-- **The characters of a written string denote the string.** -/
theorem denotesChars_escapeChars (s : List Char) : DenotesChars (escapeChars s) s := by
  induction s with
  | nil => exact .nil
  | cons c s ih =>
    rw [escapeChars, List.flatMap_cons, ← escapeChars]
    rcases escapeChar_cases c with
      ⟨letter, heq, hletter, -⟩ | ⟨hcontrol, heq⟩ | ⟨hquote, hbackslash, hprintable, heq⟩
    · rw [heq]
      exact .letter hletter ih
    · rw [heq]
      exact .unit (unitDigits_unitDigits (Nat.not_le.1 hcontrol)) ih
    · rw [heq]
      exact .plain hquote hbackslash hprintable ih

/-! ## Values and their trees -/

namespace Value

mutual

/-- The tree of a value. -/
def toTree : Value → Tree
  | .null => .null
  | .bool b => .bool b
  | .int n => .number (some (.int n))
  | .text s => .text (some s)
  | .arr items => .seq (itemsTree items)
  | .obj members => .map (membersTree members)

/-- The elements of an array as a tree. -/
def itemsTree : List Value → Items
  | [] => .done
  | v :: rest => .more v.toTree (itemsTree rest)

/-- The members of an object as a tree. -/
def membersTree : List (String × Value) → Members
  | [] => .done
  | (k, v) :: rest => .more (some k) v.toTree (membersTree rest)

end

/-- What is written after an element of an array. -/
def itemsTail : List Value → List Char
  | [] => [']']
  | v :: rest => ',' :: itemsChars (v :: rest)

/-- What is written after a member of an object. -/
def membersTail : List (String × Value) → List Char
  | [] => ['\x7d']
  | m :: rest => ',' :: membersChars (m :: rest)

theorem itemsChars_cons (v : Value) (rest : List Value) :
    itemsChars (v :: rest) = v.toChars ++ itemsTail rest := by
  cases rest <;> simp only [itemsChars, itemsTail]

theorem membersChars_cons (k : String) (v : Value) (rest : List (String × Value)) :
    membersChars ((k, v) :: rest) = stringChars k ++ ':' :: (v.toChars ++ membersTail rest) := by
  cases rest <;> simp only [membersChars, membersTail, List.append_assoc, List.cons_append]

theorem itemsTail_cons (v : Value) (rest : List Value) :
    itemsTail (v :: rest) = ',' :: (v.toChars ++ itemsTail rest) := by
  rw [itemsTail, itemsChars_cons]

theorem membersTail_cons (k : String) (v : Value) (rest : List (String × Value)) :
    membersTail ((k, v) :: rest) =
      ',' :: (stringChars k ++ ':' :: (v.toChars ++ membersTail rest)) := by
  rw [membersTail, membersChars_cons]

end Value

open Value

/-- Values whose numbers have 64 bits and which nest at most so many levels. -/
inductive Writable : Nat → Value → Prop where
  | null {depth : Nat} : Writable depth .null
  | bool {depth : Nat} (b : Bool) : Writable depth (.bool b)
  | int {depth : Nat} {n : Int} : IsWord n → Writable depth (.int n)
  | text {depth : Nat} (s : String) : Writable depth (.text s)
  | arr {depth : Nat} {items : List Value} :
      (∀ v ∈ items, Writable depth v) → Writable (depth + 1) (.arr items)
  | obj {depth : Nat} {members : List (String × Value)} :
      (∀ m ∈ members, Writable depth m.2) → Writable (depth + 1) (.obj members)

/-! ## Reading the text of a value -/

namespace Value

mutual

/-- The value as something that a text says. -/
def toDatum : Value → Datum
  | .null => .null
  | .bool b => .bool b
  | .int n => .int n
  | .text s => .text s
  | .arr items => .seq (itemsData items)
  | .obj members => .map (membersData members)

/-- The elements of an array as something that a text says. -/
def itemsData : List Value → List Datum
  | [] => []
  | v :: rest => v.toDatum :: itemsData rest

/-- The members of an object as something that a text says. -/
def membersData : List (String × Value) → List (String × Datum)
  | [] => []
  | (k, v) :: rest => (k, v.toDatum) :: membersData rest

end

mutual

theorem toTree_toDatum : ∀ v : Value, v.toDatum.toTree = v.toTree
  | .null => rfl
  | .bool _ => rfl
  | .int _ => rfl
  | .text _ => rfl
  | .arr items => by
    rw [toDatum, Datum.toTree, itemsTree_itemsData items, toTree]
  | .obj members => by
    rw [toDatum, Datum.toTree, membersTree_membersData members, toTree]

theorem itemsTree_itemsData :
    ∀ items : List Value, Datum.itemsTree (itemsData items) = itemsTree items
  | [] => rfl
  | v :: rest => by
    rw [itemsData, Datum.itemsTree, toTree_toDatum v, itemsTree_itemsData rest, itemsTree]

theorem membersTree_membersData : ∀ members : List (String × Value),
    Datum.membersTree (membersData members) = membersTree members
  | [] => rfl
  | (k, v) :: rest => by
    rw [membersData, Datum.membersTree, toTree_toDatum v, membersTree_membersData rest,
      membersTree]

end

/-- A value that is written without blanks around it. -/
def barePart (v : Value) : Part := ⟨[], v.toDatum, v.toChars, []⟩

/-- A member that is written without blanks. -/
def bareMember (m : String × Value) : Member :=
  ⟨[], m.1, escapeChars m.1.toList, [], m.2.barePart⟩

theorem spaced_barePart (v : Value) : v.barePart.Spaced := ⟨blank_nil, blank_nil⟩

theorem spaced_bareMember (m : String × Value) : (bareMember m).Spaced :=
  ⟨blank_nil, denotesChars_escapeChars _, blank_nil, spaced_barePart _⟩

theorem text_barePart (v : Value) : v.barePart.text = v.toChars := List.append_nil _

theorem text_bareMember (m : String × Value) :
    (bareMember m).text = stringChars m.1 ++ ':' :: m.2.toChars := by
  simp only [Member.text, bareMember, text_barePart, stringChars, List.nil_append, List.cons_append,
    List.append_assoc]

theorem itemsData_eq_map (items : List Value) :
    itemsData items = (items.map barePart).map Part.value := by
  induction items with
  | nil => rfl
  | cons v items ih =>
    rw [itemsData, ih]
    rfl

theorem membersData_eq_map (members : List (String × Value)) :
    membersData members = (members.map bareMember).map Member.pair := by
  induction members with
  | nil => rfl
  | cons m members ih =>
    obtain ⟨k, v⟩ := m
    rw [membersData, ih]
    rfl

theorem itemsClose_map (items : List Value) :
    itemsClose (items.map barePart) = itemsTail items := by
  induction items with
  | nil => rfl
  | cons v items ih => rw [List.map_cons, itemsClose, ih, text_barePart, itemsTail_cons]

theorem membersClose_map (members : List (String × Value)) :
    membersClose (members.map bareMember) = membersTail members := by
  induction members with
  | nil => rfl
  | cons m members ih =>
    obtain ⟨k, v⟩ := m
    rw [List.map_cons, membersClose, ih, text_bareMember, membersTail_cons, List.append_assoc,
      List.cons_append]

end Value

/-- **A writable value is denoted by its characters.** -/
theorem Writable.denotes {depth : Nat} {v : Value} (h : Writable depth v) :
    Denotes v.toChars v.toDatum := by
  induction h with
  | null => exact .null
  | bool b =>
    cases b with
    | false => exact .wordFalse
    | true => exact .wordTrue
  | int hword => exact .int hword
  | text s => exact .text (denotesChars_escapeChars s.toList)
  | @arr depth items _ ih =>
    cases items with
    | nil => exact .emptySeq blank_nil
    | cons v items =>
      have hspaced : ∀ q ∈ (v :: items).map barePart, q.Spaced :=
        List.forall_mem_map.2 fun w _ => spaced_barePart w
      have hdenotes : ∀ q ∈ (v :: items).map barePart, Denotes q.chars q.value :=
        List.forall_mem_map.2 ih
      rw [List.map_cons] at hspaced hdenotes
      have hseq := Denotes.seq hspaced hdenotes
      rw [text_barePart, itemsClose_map, ← itemsChars_cons, ← List.map_cons,
        ← itemsData_eq_map] at hseq
      exact hseq
  | @obj depth members _ ih =>
    cases members with
    | nil => exact .emptyMap blank_nil
    | cons m members =>
      have hspaced : ∀ q ∈ (m :: members).map bareMember, q.Spaced :=
        List.forall_mem_map.2 fun n _ => spaced_bareMember n
      have hdenotes : ∀ q ∈ (m :: members).map bareMember, Denotes q.part.chars q.part.value :=
        List.forall_mem_map.2 ih
      rw [List.map_cons] at hspaced hdenotes
      have hmap := Denotes.map hspaced hdenotes
      rw [text_bareMember, membersClose_map, List.append_assoc, List.cons_append,
        ← membersChars_cons, ← List.map_cons, ← membersData_eq_map] at hmap
      exact hmap

theorem Writable.textDenotes {depth : Nat} {v : Value} (h : Writable depth v) :
    TextDenotes v.render v.toDatum := by
  refine ⟨[], v.toChars, [], blank_nil, h.denotes, blank_nil, ?_⟩
  rw [render, String.toList_ofList, List.nil_append, List.append_nil]

/-- **The text of a writable value is read as the tree of the value**, and nothing follows it. -/
theorem Writable.ofText_render {depth : Nat} {v : Value} (h : Writable depth v) :
    Document.ofText v.render = ⟨v.toTree, false⟩ := by
  rw [h.textDenotes.ofText, toTree_toDatum]

/-! ## Faults and levels -/

/-- The tree of a writable value has no fault where its levels may be opened. -/
theorem Writable.readStop_toTree {depth : Nat} {v : Value} (h : Writable depth v) :
    ∀ room, depth ≤ room → v.toTree.readStop room = none := by
  induction h with
  | null => intro room _; rfl
  | bool b => intro room _; rfl
  | int hword => intro room _; rfl
  | text s => intro room _; rfl
  | @arr depth items _ ih =>
    intro room hroom
    rw [toTree, Tree.readStop, if_neg (by omega), ← itemsTree_itemsData]
    refine Datum.readStop_itemsTree fun w hw => ?_
    rw [itemsData_eq_map, List.map_map] at hw
    obtain ⟨v, hv, rfl⟩ := List.mem_map.1 hw
    exact (congrArg (Tree.readStop (room - 1)) (toTree_toDatum v)).trans (ih v hv _ (by omega))
  | @obj depth members _ ih =>
    intro room hroom
    rw [toTree, Tree.readStop, if_neg (by omega), ← membersTree_membersData]
    refine Datum.readStop_membersTree fun w hw => ?_
    rw [membersData_eq_map, List.map_map] at hw
    obtain ⟨m, hm, rfl⟩ := List.mem_map.1 hw
    exact (congrArg (Tree.readStop (room - 1)) (toTree_toDatum m.2)).trans (ih m hm _ (by omega))

/-! ## One line -/

theorem Printable.ne_newline {c : Char} (h : Printable c) : c ≠ '\n' := by
  rintro rfl
  exact absurd h (by decide)

theorem printable_digitChar {d : Nat} (h : d < 16) : Printable d.digitChar := by
  have hall : ∀ d, d < 16 → Printable d.digitChar := by decide
  exact hall d h

theorem printable_escapeChar (c : Char) : ∀ d ∈ escapeChar c, Printable d := by
  have hbackslash : Printable '\\' := by decide
  rcases escapeChar_cases c with ⟨letter, heq, -, hletter⟩ | ⟨hcontrol, heq⟩ | ⟨-, -, hc, heq⟩
  · rw [heq]
    exact List.forall_mem_cons.2 ⟨hbackslash, List.forall_mem_singleton.2 hletter⟩
  · have hlt : c.toNat < 0x20 := Nat.not_le.1 hcontrol
    have hhigh := printable_digitChar (d := c.toNat / 16) (by omega)
    have hlow := printable_digitChar (d := c.toNat % 16) (by omega)
    simp only [heq, unitDigits, List.forall_mem_cons]
    exact ⟨hbackslash, by decide, by decide, by decide, hhigh, hlow, by simp⟩
  · rw [heq]
    exact List.forall_mem_singleton.2 hc

theorem printable_stringChars {s : String} {c : Char} (h : c ∈ stringChars s) : Printable c := by
  simp only [stringChars, List.mem_cons, List.mem_append, List.not_mem_nil, or_false] at h
  rcases h with rfl | h | rfl
  · decide
  · obtain ⟨d, -, hd⟩ := List.mem_flatMap.1 h
    exact printable_escapeChar d c hd
  · decide

theorem printable_intChars {n : Int} {c : Char} (h : c ∈ intChars n) : Printable c := by
  have hdigit {c : Char} (h : c ∈ Nat.toDigits 10 n.natAbs) : Printable c := by
    have hc := isDigit_of_mem_toDigits h
    simp only [isDigit, Bool.and_eq_true, decide_eq_true_eq] at hc
    exact Nat.le_trans (by decide) (Char.le_def.1 hc.1)
  unfold intChars at h
  split at h
  · rcases List.mem_cons.1 h with rfl | h
    · decide
    · exact hdigit h
  · exact hdigit h

/-- **A written value has no control characters**, whatever its strings hold. -/
theorem Writable.printable_of_mem_toChars {depth : Nat} {v : Value} (h : Writable depth v) :
    ∀ c ∈ v.toChars, Printable c := by
  induction h with
  | null => simp [toChars, Printable]
  | bool b => cases b <;> simp [toChars, Printable]
  | int _ => exact fun c hc => printable_intChars hc
  | text s => exact fun c hc => printable_stringChars hc
  | @arr depth items _ ih =>
    have htail : ∀ c ∈ itemsTail items, Printable c := by
      clear * - ih
      induction items with
      | nil => simp [itemsTail, Printable]
      | cons v items ihItems =>
        have hrest := ihItems fun w hw => ih w (List.mem_cons_of_mem _ hw)
        intro c hc
        rw [itemsTail_cons, List.mem_cons, List.mem_append] at hc
        rcases hc with rfl | hc | hc
        · decide
        · exact ih v List.mem_cons_self c hc
        · exact hrest c hc
    intro c hc
    rcases List.mem_cons.1 hc with rfl | hc
    · decide
    cases items with
    | nil => exact htail c hc
    | cons v items => exact htail c (List.mem_cons_of_mem _ hc)
  | @obj depth members _ ih =>
    have htail : ∀ c ∈ membersTail members, Printable c := by
      clear * - ih
      induction members with
      | nil => simp [membersTail, Printable]
      | cons m members ihMembers =>
        obtain ⟨k, v⟩ := m
        have hrest := ihMembers fun w hw => ih w (List.mem_cons_of_mem _ hw)
        intro c hc
        rw [membersTail_cons, List.mem_cons, List.mem_append, List.mem_cons,
          List.mem_append] at hc
        rcases hc with rfl | hc | rfl | hc | hc
        · decide
        · exact printable_stringChars hc
        · decide
        · exact ih (k, v) List.mem_cons_self c hc
        · exact hrest c hc
    intro c hc
    rcases List.mem_cons.1 hc with rfl | hc
    · decide
    cases members with
    | nil => exact htail c hc
    | cons m members => exact htail c (List.mem_cons_of_mem _ hc)

/-- **A written value stands on one line.** -/
theorem Writable.newline_not_mem_render {depth : Nat} {v : Value} (h : Writable depth v) :
    '\n' ∉ v.render.toList := by
  intro hc
  rw [render, String.toList_ofList] at hc
  exact (h.printable_of_mem_toChars _ hc).ne_newline rfl

end FuzzLedger.Json
