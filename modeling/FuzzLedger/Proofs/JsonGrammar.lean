import FuzzLedger.Json.Tree
import FuzzLedger.Proofs.JsonLexeme

/-!
# JSON texts are read as what they denote

`Datum` is what a JSON text may say, and `Denotes` is the grammar: which characters say it, with any
blanks around the tokens.

* `readItems_itemsClose`, `readMembers_membersClose` — the elements of an array and the members of
  an object are read one after the other.
* `Denotes.readTree` — what denotes a datum is read as the tree of the datum, by induction on the
  grammar.
* `TextDenotes.ofText` — so a text with one value in it is read as the tree of that value.
-/

set_option autoImplicit false

namespace FuzzLedger.Json

/-! ## Data -/

/-- What a JSON text may say.  The members of an object have an order, and keys may be repeated. -/
inductive Datum where
  | null
  | bool (b : Bool)
  | int (n : Int)
  | real (x : Real)
  | text (s : String)
  | seq (items : List Datum)
  | map (members : List (String × Datum))

namespace Datum

mutual

/-- The tree of a datum. -/
def toTree : Datum → Tree
  | .null => .null
  | .bool b => .bool b
  | .int n => .number (some (.int n))
  | .real x => .number (x.value.map .float)
  | .text s => .text (some s)
  | .seq items => .seq (itemsTree items)
  | .map members => .map (membersTree members)

/-- The elements of an array as a tree. -/
def itemsTree : List Datum → Items
  | [] => .done
  | v :: rest => .more v.toTree (itemsTree rest)

/-- The members of an object as a tree. -/
def membersTree : List (String × Datum) → Members
  | [] => .done
  | (k, v) :: rest => .more (some k) v.toTree (membersTree rest)

end

mutual

/-- The tree of a datum has no fault for whoever passes it over. -/
theorem passStop_toTree : ∀ v : Datum, v.toTree.passStop = none
  | .null => rfl
  | .bool _ => rfl
  | .int _ => rfl
  | .real _ => rfl
  | .text _ => rfl
  | .seq items => by
    rw [toTree, Tree.passStop]
    exact passStop_itemsTree items
  | .map members => by
    rw [toTree, Tree.passStop]
    exact passStop_membersTree members

theorem passStop_itemsTree : ∀ items : List Datum, (itemsTree items).passStop = none
  | [] => rfl
  | v :: rest => by
    rw [itemsTree, Items.passStop, passStop_toTree v, Option.none_or]
    exact passStop_itemsTree rest

theorem passStop_membersTree :
    ∀ members : List (String × Datum), (membersTree members).passStop = none
  | [] => rfl
  | (_, v) :: rest => by
    rw [membersTree, Members.passStop, passStop_toTree v, Option.none_or]
    exact passStop_membersTree rest

end

/-- Elements have no fault for whoever needs them if none of them has one. -/
theorem readStop_itemsTree {room : Nat} {items : List Datum}
    (h : ∀ v ∈ items, v.toTree.readStop room = none) :
    (itemsTree items).readStop room = none := by
  induction items with
  | nil => rfl
  | cons v items ih =>
    obtain ⟨hv, hitems⟩ := List.forall_mem_cons.1 h
    rw [itemsTree, Items.readStop, hv, Option.none_or, ih hitems]

/-- Members have no fault for whoever needs them if none of their values has one. -/
theorem readStop_membersTree {room : Nat} {members : List (String × Datum)}
    (h : ∀ m ∈ members, m.2.toTree.readStop room = none) :
    (membersTree members).readStop room = none := by
  induction members with
  | nil => rfl
  | cons m members ih =>
    obtain ⟨hm, hmembers⟩ := List.forall_mem_cons.1 h
    rw [membersTree, Members.readStop, Option.isSome_some, if_pos rfl, hm, Option.none_or,
      ih hmembers]

end Datum

/-! ## The grammar -/

/-- Nothing but blanks. -/
def Blank (gap : List Char) : Prop := ∀ c ∈ gap, isBlank c = true

theorem blank_nil : Blank [] := List.forall_mem_nil _

/-- An element of an array or the value of a member, with the blanks around it. -/
structure Part where
  before : List Char
  value : Datum
  chars : List Char
  after : List Char

/-- How the part is written. -/
def Part.text (p : Part) : List Char := p.before ++ (p.chars ++ p.after)

/-- What stands around the value is blank. -/
structure Part.Spaced (p : Part) : Prop where
  before : Blank p.before
  after : Blank p.after

/-- A member of an object. -/
structure Member where
  gap : List Char
  key : String
  keyChars : List Char
  colonGap : List Char
  part : Part

namespace Member

/-- How the member is written. -/
def text (m : Member) : List Char :=
  m.gap ++ '"' :: (m.keyChars ++ '"' :: (m.colonGap ++ ':' :: m.part.text))

/-- The key and the value. -/
def pair (m : Member) : String × Datum := (m.key, m.part.value)

/-- What stands around the key and the value is blank, and the key is denoted by its characters. -/
structure Spaced (m : Member) : Prop where
  gap : Blank m.gap
  key : DenotesChars m.keyChars m.key.toList
  colonGap : Blank m.colonGap
  part : m.part.Spaced

end Member

/-- How an array goes on after an element. -/
def itemsClose : List Part → List Char
  | [] => [']']
  | p :: rest => ',' :: (p.text ++ itemsClose rest)

/-- How an object goes on after a member. -/
def membersClose : List Member → List Char
  | [] => ['\x7d']
  | m :: rest => ',' :: (m.text ++ membersClose rest)

/-- The characters of a JSON value, without blanks around them, and what they denote. -/
inductive Denotes : List Char → Datum → Prop where
  | null : Denotes ['n', 'u', 'l', 'l'] .null
  | wordTrue : Denotes ['t', 'r', 'u', 'e'] (.bool true)
  | wordFalse : Denotes ['f', 'a', 'l', 's', 'e'] (.bool false)
  /-- A whole number of 64 bits, written plainly. -/
  | int {n : Int} (h : IsWord n) : Denotes (intChars n) (.int n)
  | real (x : Real) : Denotes x.chars (.real x)
  | text {chars : List Char} {s : String} (h : DenotesChars chars s.toList) :
      Denotes ('"' :: (chars ++ ['"'])) (.text s)
  | emptySeq {gap : List Char} (h : Blank gap) : Denotes ('[' :: (gap ++ [']'])) (.seq [])
  | seq {p : Part} {rest : List Part} (hspaced : ∀ q ∈ p :: rest, q.Spaced)
      (h : ∀ q ∈ p :: rest, Denotes q.chars q.value) :
      Denotes ('[' :: (p.text ++ itemsClose rest)) (.seq ((p :: rest).map Part.value))
  | emptyMap {gap : List Char} (h : Blank gap) : Denotes ('\x7b' :: (gap ++ ['\x7d'])) (.map [])
  | map {m : Member} {rest : List Member} (hspaced : ∀ q ∈ m :: rest, q.Spaced)
      (h : ∀ q ∈ m :: rest, Denotes q.part.chars q.part.value) :
      Denotes ('\x7b' :: (m.text ++ membersClose rest)) (.map ((m :: rest).map Member.pair))

/-- A text of one value with blanks around it, and what it denotes. -/
def TextDenotes (text : String) (v : Datum) : Prop :=
  ∃ before chars after, Blank before ∧ Denotes chars v ∧ Blank after ∧
    text.toList = before ++ (chars ++ after)

/-! ## From texts to trees -/

theorem skipBlank_cons {c : Char} (h : isBlank c = false) (rest : List Char) :
    skipBlank (c :: rest) = c :: rest := by
  simp [skipBlank, h]

theorem skipBlank_append {gap : List Char} (h : Blank gap) {c : Char} (hc : isBlank c = false)
    (rest : List Char) : skipBlank (gap ++ c :: rest) = c :: rest := by
  have hdrop : skipBlank (gap ++ c :: rest) = skipBlank (c :: rest) :=
    List.dropWhile_append_of_pos h
  rw [hdrop, skipBlank_cons hc]

/-- Neither a blank nor what ends a list can go on a number. -/
theorem numberEnds_append {gap : List Char} (h : Blank gap) {c : Char}
    (hc : isDigit c = false ∧ c ≠ '.' ∧ c ≠ 'e' ∧ c ≠ 'E') (rest : List Char) :
    NumberEnds (gap ++ c :: rest) := by
  cases gap with
  | nil => exact .cons hc _
  | cons d gap =>
    have hblank := h d List.mem_cons_self
    simp only [isBlank, Bool.or_eq_true, beq_iff_eq] at hblank
    rcases hblank with ((rfl | rfl) | rfl) | rfl <;> exact .cons (by decide) _

/-- What begins a number begins nothing else. -/
theorem ne_of_startsNumber {c : Char} (h : c = '-' ∨ isDigit c = true) :
    isBlank c = false ∧ c ≠ ']' ∧ c ≠ '"' ∧ c ≠ '[' ∧ c ≠ '\x7b' := by
  have hne {d : Char} (hd : ¬ (d = '-' ∨ isDigit d = true)) : c ≠ d := fun heq => hd (heq ▸ h)
  refine ⟨?_, hne (by decide), hne (by decide), hne (by decide), hne (by decide)⟩
  unfold isBlank
  simp only [Bool.or_eq_false_iff, beq_eq_false_iff_ne]
  exact ⟨⟨⟨hne (by decide), hne (by decide)⟩, hne (by decide)⟩, hne (by decide)⟩

/-- A value begins with a character that is neither blank nor the end of an array. -/
theorem Denotes.eq_cons {chars : List Char} {v : Datum} (h : Denotes chars v) :
    ∃ c rest, chars = c :: rest ∧ isBlank c = false ∧ c ≠ ']' := by
  have hnumber {chars : List Char} (hstart : StartsNumber chars) :
      ∃ c rest, chars = c :: rest ∧ isBlank c = false ∧ c ≠ ']' := by
    obtain ⟨c, rest, heq, hc⟩ := hstart
    obtain ⟨hblank, hclose, -⟩ := ne_of_startsNumber hc
    exact ⟨c, rest, heq, hblank, hclose⟩
  cases h with
  | int _ => exact hnumber (startsNumber_intChars _)
  | real x => exact hnumber (startsNumber_chars x)
  | _ => exact ⟨_, _, rfl, by decide, by decide⟩

theorem readTree_number {chars rest : List Char} {n : Option Numeral} {steps : Nat}
    (hstart : StartsNumber chars) (hread : readNumber (chars ++ rest) = .done n rest)
    (hsteps : 0 < steps) : readTree steps (chars ++ rest) = (.number n, some rest) := by
  obtain ⟨c, cs, rfl, hc⟩ := hstart
  obtain ⟨steps, rfl⟩ : ∃ n, steps = n + 1 := ⟨steps - 1, by omega⟩
  obtain ⟨hblank, -, hquote, hbracket, hbrace⟩ := ne_of_startsNumber hc
  rw [List.cons_append] at hread ⊢
  simp only [readTree, skipBlank_cons hblank, if_neg hquote, if_neg hbracket, if_neg hbrace,
    if_pos hc, hread]

/-- The characters are read as the datum wherever the text goes on as a JSON text may. -/
def ReadsAs (chars : List Char) (v : Datum) : Prop :=
  ∀ (steps : Nat) (rest : List Char), NumberEnds rest → 3 * chars.length ≤ steps →
    readTree steps (chars ++ rest) = (v.toTree, some rest)

/-- Blanks before a value are skipped. -/
theorem readTree_of_blank {gap chars rest : List Char} {v : Datum} {steps : Nat} {t : Rest Tree}
    (hgap : Blank gap) (hdenotes : Denotes chars v) (h : readTree steps (chars ++ rest) = t) :
    readTree steps (gap ++ (chars ++ rest)) = t := by
  obtain ⟨c, cs, rfl, hblank, -⟩ := hdenotes.eq_cons
  rw [← h]
  cases steps with
  | zero => rfl
  | succ steps =>
    simp only [List.cons_append, readTree, skipBlank_append hgap hblank, skipBlank_cons hblank]

/-! ### Arrays -/

/-- What follows an element cannot go on a number. -/
theorem numberEnds_itemsClose {gap : List Char} (h : Blank gap) (parts : List Part)
    (rest : List Char) : NumberEnds (gap ++ (itemsClose parts ++ rest)) := by
  cases parts <;> exact numberEnds_append h (by decide) _

/-- An element is read with those after it. -/
theorem readItem_of_readsAs {p : Part} (hspaced : p.Spaced) (hreads : ReadsAs p.chars p.value)
    {parts : List Part} {items : Items} {steps : Nat} {rest : List Char}
    (hclose : readItems steps false (p.after ++ (itemsClose parts ++ rest)) = (items, some rest))
    (hsteps : 3 * p.chars.length ≤ steps) :
    readItem (steps + 1) (p.chars ++ (p.after ++ (itemsClose parts ++ rest))) =
      (.more p.value.toTree items, some rest) := by
  have hhead := hreads steps _ (numberEnds_itemsClose hspaced.after parts rest) hsteps
  simp only [readItem, hhead, hclose]

/-- The elements after one that was read. -/
theorem readItems_itemsClose {parts : List Part} (hspaced : ∀ p ∈ parts, p.Spaced)
    (hdenotes : ∀ p ∈ parts, Denotes p.chars p.value)
    (hreads : ∀ p ∈ parts, ReadsAs p.chars p.value) :
    ∀ (steps : Nat) (gap rest : List Char), Blank gap → 3 * (itemsClose parts).length ≤ steps →
      readItems steps false (gap ++ (itemsClose parts ++ rest)) =
        (Datum.itemsTree (parts.map Part.value), some rest) := by
  induction parts with
  | nil =>
    intro steps gap rest hgap hsteps
    obtain ⟨steps, rfl⟩ : ∃ n, steps = n + 1 :=
      ⟨steps - 1, by simp only [itemsClose, List.length_singleton] at hsteps; omega⟩
    have hskip : skipBlank (gap ++ (itemsClose [] ++ rest)) = ']' :: rest :=
      skipBlank_append hgap (by decide) _
    simp only [readItems, hskip, if_true]
    rfl
  | cons p parts ih =>
    intro steps gap rest hgap hsteps
    obtain ⟨hp, hparts⟩ := List.forall_mem_cons.1 hspaced
    obtain ⟨c, cs, hc, hblank, hclose⟩ := (hdenotes p List.mem_cons_self).eq_cons
    simp only [itemsClose, Part.text, List.length_cons, List.length_append] at hsteps
    obtain ⟨steps, rfl⟩ : ∃ n, steps = n + 3 := ⟨steps - 3, by omega⟩
    have hrest := ih hparts (fun q hq => hdenotes q (List.mem_cons_of_mem _ hq))
      (fun q hq => hreads q (List.mem_cons_of_mem _ hq)) (steps + 1) p.after rest hp.after
      (by omega)
    have hitem := readItem_of_readsAs hp (hreads p List.mem_cons_self) hrest (by omega)
    have hskip : skipBlank (gap ++ (itemsClose (p :: parts) ++ rest)) =
        ',' :: (p.before ++ (p.chars ++ (p.after ++ (itemsClose parts ++ rest)))) := by
      simp only [itemsClose, Part.text, List.cons_append, List.append_assoc]
      exact skipBlank_append hgap (by decide) _
    have hskip' : skipBlank (p.before ++ (p.chars ++ (p.after ++ (itemsClose parts ++ rest)))) =
        c :: (cs ++ (p.after ++ (itemsClose parts ++ rest))) := by
      rw [hc, List.cons_append]
      exact skipBlank_append hp.before hblank _
    rw [hc, List.cons_append] at hitem
    simp only [readItems, hskip, Char.reduceEq, if_false, Bool.false_eq_true, if_true, hskip',
      if_neg hclose, hitem]
    rfl

/-- The elements of an array after its opening bracket. -/
theorem readItems_first {p : Part} {parts : List Part} (hspaced : ∀ q ∈ p :: parts, q.Spaced)
    (hdenotes : ∀ q ∈ p :: parts, Denotes q.chars q.value)
    (hreads : ∀ q ∈ p :: parts, ReadsAs q.chars q.value) (steps : Nat) (rest : List Char)
    (hsteps : 3 * (p.text ++ itemsClose parts).length + 2 ≤ steps) :
    readItems steps true (p.text ++ itemsClose parts ++ rest) =
      (Datum.itemsTree ((p :: parts).map Part.value), some rest) := by
  obtain ⟨hp, hparts⟩ := List.forall_mem_cons.1 hspaced
  obtain ⟨c, cs, hc, hblank, hclose⟩ := (hdenotes p List.mem_cons_self).eq_cons
  simp only [Part.text, List.length_append] at hsteps
  obtain ⟨steps, rfl⟩ : ∃ n, steps = n + 2 := ⟨steps - 2, by omega⟩
  have hrest := readItems_itemsClose hparts (fun q hq => hdenotes q (List.mem_cons_of_mem _ hq))
    (fun q hq => hreads q (List.mem_cons_of_mem _ hq)) steps p.after rest hp.after (by omega)
  have hitem := readItem_of_readsAs hp (hreads p List.mem_cons_self) hrest (by omega)
  have hskip : skipBlank (p.text ++ itemsClose parts ++ rest) =
      c :: (cs ++ (p.after ++ (itemsClose parts ++ rest))) := by
    simp only [Part.text, hc, List.cons_append, List.append_assoc]
    exact skipBlank_append hp.before hblank _
  rw [hc, List.cons_append] at hitem
  simp only [readItems, hskip, if_neg hclose, if_true, hitem]
  rfl

/-! ### Objects -/

/-- What follows a member cannot go on a number. -/
theorem numberEnds_membersClose {gap : List Char} (h : Blank gap) (members : List Member)
    (rest : List Char) : NumberEnds (gap ++ (membersClose members ++ rest)) := by
  cases members <;> exact numberEnds_append h (by decide) _

/-- A member is read, after its opening quote, with those after it. -/
theorem readMember_of_readsAs {m : Member} (hspaced : m.Spaced)
    (hdenotes : Denotes m.part.chars m.part.value) (hreads : ReadsAs m.part.chars m.part.value)
    {members : List Member} {tail : Members} {steps : Nat} {rest : List Char}
    (hclose : readMembers steps false (m.part.after ++ (membersClose members ++ rest)) =
      (tail, some rest)) (hsteps : 3 * m.text.length ≤ steps) :
    readMember (steps + 1) (m.keyChars ++ '"' :: (m.colonGap ++ ':' ::
        (m.part.before ++ (m.part.chars ++ (m.part.after ++ (membersClose members ++ rest)))))) =
      (.more (some m.key) m.part.value.toTree tail, some rest) := by
  simp only [Member.text, Part.text, List.length_append, List.length_cons] at hsteps
  have hkey := stringBody_of_denotes hspaced.key steps [] (m.colonGap ++ ':' ::
    (m.part.before ++ (m.part.chars ++ (m.part.after ++ (membersClose members ++ rest)))))
    (by omega)
  rw [List.reverse_nil, List.nil_append, String.ofList_toList] at hkey
  have hvalue := readTree_of_blank hspaced.part.before hdenotes
    (hreads steps _ (numberEnds_membersClose hspaced.part.after members rest) (by omega))
  have hcolon : isBlank ':' = false := by decide
  simp only [readMember, hkey, skipBlank_append hspaced.colonGap hcolon, if_true, hvalue, hclose]

/-- The members after one that was read. -/
theorem readMembers_membersClose {members : List Member} (hspaced : ∀ m ∈ members, m.Spaced)
    (hdenotes : ∀ m ∈ members, Denotes m.part.chars m.part.value)
    (hreads : ∀ m ∈ members, ReadsAs m.part.chars m.part.value) :
    ∀ (steps : Nat) (gap rest : List Char), Blank gap →
      3 * (membersClose members).length ≤ steps →
      readMembers steps false (gap ++ (membersClose members ++ rest)) =
        (Datum.membersTree (members.map Member.pair), some rest) := by
  induction members with
  | nil =>
    intro steps gap rest hgap hsteps
    obtain ⟨steps, rfl⟩ : ∃ n, steps = n + 1 :=
      ⟨steps - 1, by simp only [membersClose, List.length_singleton] at hsteps; omega⟩
    have hskip : skipBlank (gap ++ (membersClose [] ++ rest)) = '\x7d' :: rest :=
      skipBlank_append hgap (by decide) _
    simp only [readMembers, hskip, if_true]
    rfl
  | cons m members ih =>
    intro steps gap rest hgap hsteps
    obtain ⟨hm, hmembers⟩ := List.forall_mem_cons.1 hspaced
    simp only [membersClose, List.length_cons, List.length_append] at hsteps
    obtain ⟨steps, rfl⟩ : ∃ n, steps = n + 3 := ⟨steps - 3, by omega⟩
    have hrest := ih hmembers (fun q hq => hdenotes q (List.mem_cons_of_mem _ hq))
      (fun q hq => hreads q (List.mem_cons_of_mem _ hq)) (steps + 1) m.part.after rest
      hm.part.after (by omega)
    have hmember := readMember_of_readsAs hm (hdenotes m List.mem_cons_self)
      (hreads m List.mem_cons_self) hrest (by omega)
    have hskip : skipBlank (gap ++ (membersClose (m :: members) ++ rest)) =
        ',' :: (m.text ++ (membersClose members ++ rest)) := by
      simp only [membersClose, List.cons_append, List.append_assoc]
      exact skipBlank_append hgap (by decide) _
    have hskip' : skipBlank (m.text ++ (membersClose members ++ rest)) =
        '"' :: (m.keyChars ++ '"' :: (m.colonGap ++ ':' :: (m.part.before ++
          (m.part.chars ++ (m.part.after ++ (membersClose members ++ rest)))))) := by
      simp only [Member.text, Part.text, List.cons_append, List.append_assoc]
      exact skipBlank_append hm.gap (by decide) _
    simp only [readMembers, hskip, Char.reduceEq, if_false, Bool.false_eq_true, if_true, hskip',
      hmember]
    rfl

/-- The members of an object after its opening brace. -/
theorem readMembers_first {m : Member} {members : List Member}
    (hspaced : ∀ q ∈ m :: members, q.Spaced)
    (hdenotes : ∀ q ∈ m :: members, Denotes q.part.chars q.part.value)
    (hreads : ∀ q ∈ m :: members, ReadsAs q.part.chars q.part.value) (steps : Nat)
    (rest : List Char) (hsteps : 3 * (m.text ++ membersClose members).length + 2 ≤ steps) :
    readMembers steps true (m.text ++ membersClose members ++ rest) =
      (Datum.membersTree ((m :: members).map Member.pair), some rest) := by
  obtain ⟨hm, hmembers⟩ := List.forall_mem_cons.1 hspaced
  simp only [List.length_append] at hsteps
  obtain ⟨steps, rfl⟩ : ∃ n, steps = n + 2 := ⟨steps - 2, by omega⟩
  have hrest := readMembers_membersClose hmembers
    (fun q hq => hdenotes q (List.mem_cons_of_mem _ hq))
    (fun q hq => hreads q (List.mem_cons_of_mem _ hq)) steps m.part.after rest hm.part.after
    (by omega)
  have hmember := readMember_of_readsAs hm (hdenotes m List.mem_cons_self)
    (hreads m List.mem_cons_self) hrest (by omega)
  have hskip : skipBlank (m.text ++ membersClose members ++ rest) =
      '"' :: (m.keyChars ++ '"' :: (m.colonGap ++ ':' :: (m.part.before ++
        (m.part.chars ++ (m.part.after ++ (membersClose members ++ rest)))))) := by
    simp only [Member.text, Part.text, List.cons_append, List.append_assoc]
    exact skipBlank_append hm.gap (by decide) _
  simp only [readMembers, hskip, Char.reduceEq, if_false, if_true, hmember]
  rfl

/-! ### Values -/

/-- **What denotes a datum is read as the tree of the datum.** -/
theorem Denotes.readTree {chars : List Char} {v : Datum} (h : Denotes chars v) :
    ReadsAs chars v := by
  have hbracket : isBlank '[' = false := by decide
  have hbrace : isBlank '\x7b' = false := by decide
  induction h with
  | null | wordTrue | wordFalse =>
    intro steps rest _ hsteps
    obtain ⟨steps, rfl⟩ : ∃ n, steps = n + 1 := ⟨steps - 1, by simp at hsteps; omega⟩
    rfl
  | @int n hword =>
    intro steps rest hrest hsteps
    have hstart := startsNumber_intChars n
    refine readTree_number hstart (readNumber_intChars hword hrest) ?_
    obtain ⟨c, cs, heq, -⟩ := hstart
    rw [heq, List.length_cons] at hsteps
    omega
  | real x =>
    intro steps rest hrest hsteps
    have hstart := startsNumber_chars x
    refine readTree_number hstart (x.readNumber_chars hrest) ?_
    obtain ⟨c, cs, heq, -⟩ := hstart
    rw [heq, List.length_cons] at hsteps
    omega
  | @text chars s hchars =>
    intro steps rest _ hsteps
    simp only [List.length_cons, List.length_append] at hsteps
    obtain ⟨steps, rfl⟩ : ∃ n, steps = n + 1 := ⟨steps - 1, by omega⟩
    have hstring := stringBody_of_denotes hchars steps [] rest (by omega)
    rw [List.reverse_nil, List.nil_append, String.ofList_toList] at hstring
    have hquote : isBlank '"' = false := by decide
    simp only [List.cons_append, List.append_assoc, List.nil_append, Json.readTree,
      skipBlank_cons hquote, if_true, hstring]
    rfl
  | @emptySeq gap hgap =>
    intro steps rest _ hsteps
    simp only [List.length_cons] at hsteps
    obtain ⟨steps, rfl⟩ : ∃ n, steps = n + 2 := ⟨steps - 2, by omega⟩
    have hclose : isBlank ']' = false := by decide
    simp only [List.cons_append, List.append_assoc, List.nil_append, Json.readTree,
      skipBlank_cons hbracket, Char.reduceEq, if_false, if_true, readItems,
      skipBlank_append hgap hclose]
    rfl
  | seq hspaced hdenotes ih =>
    intro steps rest _ hsteps
    rw [List.length_cons] at hsteps
    obtain ⟨steps, rfl⟩ : ∃ n, steps = n + 1 := ⟨steps - 1, by omega⟩
    have hitems := readItems_first hspaced hdenotes ih steps rest (by omega)
    simp only [List.cons_append, Json.readTree, skipBlank_cons hbracket, Char.reduceEq, if_false,
      if_true, hitems]
    rfl
  | @emptyMap gap hgap =>
    intro steps rest _ hsteps
    simp only [List.length_cons] at hsteps
    obtain ⟨steps, rfl⟩ : ∃ n, steps = n + 2 := ⟨steps - 2, by omega⟩
    have hclose : isBlank '\x7d' = false := by decide
    simp only [List.cons_append, List.append_assoc, List.nil_append, Json.readTree,
      skipBlank_cons hbrace, Char.reduceEq, if_false, if_true, readMembers,
      skipBlank_append hgap hclose]
    rfl
  | map hspaced hdenotes ih =>
    intro steps rest _ hsteps
    rw [List.length_cons] at hsteps
    obtain ⟨steps, rfl⟩ : ∃ n, steps = n + 1 := ⟨steps - 1, by omega⟩
    have hmembers := readMembers_first hspaced hdenotes ih steps rest (by omega)
    simp only [List.cons_append, Json.readTree, skipBlank_cons hbrace, Char.reduceEq, if_false,
      if_true, hmembers]
    rfl

/-- **A text is read as the tree of what it denotes**, and nothing follows it. -/
theorem TextDenotes.ofText {text : String} {v : Datum} (h : TextDenotes text v) :
    Document.ofText text = ⟨v.toTree, false⟩ := by
  obtain ⟨before, chars, after, hbefore, hchars, hafter, heq⟩ := h
  have hends : NumberEnds after := by
    cases after with
    | nil => exact .nil
    | cons c after =>
      have hblank := hafter c List.mem_cons_self
      simp only [isBlank, Bool.or_eq_true, beq_iff_eq] at hblank
      rcases hblank with ((rfl | rfl) | rfl) | rfl <;> exact .cons (by decide) _
  have hread := readTree_of_blank hbefore hchars
    (hchars.readTree (3 * text.toList.length + 3) after hends (by
      rw [heq]
      simp only [List.length_append]
      omega))
  have hrest : (skipBlank after).isEmpty = true := by
    unfold skipBlank
    rw [List.isEmpty_iff, List.dropWhile_eq_nil_iff]
    exact hafter
  rw [← heq] at hread
  simp only [Document.ofText, Document.ofChars, hread, hrest, Bool.not_true]

end FuzzLedger.Json
