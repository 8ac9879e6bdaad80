import FuzzLedger.Proofs.Creation
import FuzzLedger.Proofs.Identifiers

/-!
# Two ways of enforcing the limits of texts

A limit is enforced twice: the operations that create a row check the whole text (`Limit.check`),
and the tables check a text up to its first NUL (`Limit.columnLength`).

* `Limit.agree_iff` — the two checks differ on a text exactly if it has a NUL, what stands before it
  fits and the whole does not.
* `Store.violation?_check_iff` — what the tables check of a row, text by text.
* `insertCells_check_iff`, `create_tooLong_iff` — which of the two refuses a row that is otherwise
  the same, when it is inserted directly and when it is created.
* `text_limits` — both together, for every column that has a limit.
* `limits_differ` — the tables take a name that is too long, if a NUL stands before the excess.
-/

set_option autoImplicit false

namespace FuzzLedger

/-! ## The two lengths -/

namespace Limit

variable {text : String} {limit : Nat}

theorem columnLength_eq_length_iff : columnLength text = text.length ↔ '\x00' ∉ text.toList := by
  unfold columnLength
  rw [← String.length_toList]
  constructor
  · intro hlength hnul
    have hall := (List.takeWhile_sublist (· ≠ '\x00')).eq_of_length hlength
    rw [List.takeWhile_eq_self_iff] at hall
    exact absurd (hall _ hnul) (by decide)
  · intro hnul
    have hall : text.toList.takeWhile (· ≠ '\x00') = text.toList := by
      rw [List.takeWhile_eq_self_iff]
      intro c hc
      rw [decide_eq_true_iff]
      rintro rfl
      exact hnul hc
    rw [hall]

/-- **The two checks agree on a text** if it has no NUL, if it fits, or if what stands before its
first NUL does not fit. -/
theorem agree_iff (field : String) :
    (columnLength text ≤ limit ↔ check field text limit = .ok ()) ↔
      ('\x00' ∉ text.toList ∨ text.length ≤ limit ∨ limit < columnLength text) := by
  have hle := columnLength_le text
  rw [check_eq_ok_iff, ← columnLength_eq_length_iff]
  omega

end Limit

/-! ## What the tables check -/

namespace Store

variable {s : Store} {e : Entity} {r : Row e}

/-- The reasons of the tables: a text, or something else that is no check of a column. -/
theorem violation?_check_iff :
    (∃ v text, s.violation? e r = some v ∧ Failure.ofViolation v = ⟨.check text, []⟩) ↔
      ∃ b ∈ Row.boundedTexts e r, b.limit < b.text.columnLength := by
  have hfits : (∃ b ∈ Row.boundedTexts e r, b.limit < b.text.columnLength) ↔
      ¬ overLong? e r = none := by
    rw [overLong?_eq_none_iff]
    push Not
    rfl
  rw [hfits]
  cases hlong : overLong? e r with
  | some v =>
    have hv : s.violation? e r = some v := by
      unfold violation?
      rw [hlong]
    obtain ⟨b, -, rfl⟩ := Option.map_eq_some_iff.1 hlong
    simp [hv, Failure.ofViolation, Fault.ofEngine, Violation.report]
  | none =>
    simp only [not_true_eq_false, iff_false]
    rintro ⟨v, text, hv, hcheck⟩
    unfold violation? at hv
    rw [hlong] at hv
    simp only at hv
    repeat' split at hv
    all_goals cases hv
    all_goals simp [Failure.ofViolation, Fault.ofEngine, Violation.report] at hcheck

/-- A refused row is never refused for want of an identifier. -/
theorem fault_of_violation? {v : Violation} (h : s.violation? e r = some v) :
    (Failure.ofViolation v).fault ≠ .engine .full ∧
      ∀ t, (Failure.ofViolation v).fault ≠ .tooLong t := by
  unfold violation? at h
  split at h
  · rename_i v' hlong
    cases h
    obtain ⟨b, -, rfl⟩ := Option.map_eq_some_iff.1 hlong
    simp [Failure.ofViolation, Fault.ofEngine, Violation.report]
  · repeat' split at h
    all_goals cases h
    all_goals simp [Failure.ofViolation, Fault.ofEngine, Violation.report]

end Store

/-! ## Direct insertions -/

namespace Session

variable {s : Session} {store : Store}

/-- **A direct insertion is refused for a text** if what stands before its first NUL is too long. -/
theorem insertCells_check_iff (htables : s.image.tables = some store) {now : Stamp} {e : Entity}
    {cells : Cells} {id : Int} {r : Row e} (hknown : cells.unknown? e = none)
    (hid : cells.idIn store e = some id) (hrow : cells.toRow now id e = .ok r) :
    (∃ text, insertCells now e cells s = .error ⟨.check text, []⟩ s) ↔
      ∃ b ∈ Row.boundedTexts e r, b.limit < b.text.columnLength := by
  have haction := Action.insertCells_eq_of_toRow hknown hid hrow
  rw [← store.violation?_check_iff]
  cases hv : store.violation? e r with
  | none =>
    rw [hv] at haction
    cases hrefers : cells.refers e with
    | true =>
      rw [hrefers] at haction
      have hinsert : insertCells now e cells s = .ok id (s.withTables (store.add e r)) :=
        write_of_ok htables haction
      simp [hinsert]
    | false =>
      rw [hrefers] at haction
      have hinsert : insertCells now e cells s = .error (.ofViolation .danglingReference) s :=
        write_of_error htables haction (by decide)
      simp [hinsert, Failure.ofViolation, Fault.ofEngine, Violation.report]
  | some v =>
    rw [hv] at haction
    have hinsert : insertCells now e cells s = .error (.ofViolation v) s :=
      write_of_error htables haction (Store.fault_of_violation? hv).1
    simp [hinsert]

/-- **Creating a row is refused for a text** if all of it is too long. -/
theorem create_tooLong_iff (htables : s.image.tables = some store) {n : NewRow} {id : Int}
    (hnext : store.nextId? n.kind = some id) :
    (∃ t, n.create s = .error ⟨.tooLong t, []⟩ s) ↔
      ∃ b ∈ n.texts, Limit.check b.column b.text b.limit ≠ .ok () := by
  have hfits : n.tooLong? = none ↔
      ¬ ∃ b ∈ n.texts, Limit.check b.column b.text b.limit ≠ .ok () := by
    rw [NewRow.tooLong?_eq_none_iff]
    push Not
    exact forall₂_congr fun b _ => Limit.check_eq_ok_iff.symm
  cases hlong : n.tooLong? with
  | some t =>
    have hcreate := create_of_error htables (NewRow.action_of_tooLong hlong store) (by simp)
    rw [hlong] at hfits
    simp only [reduceCtorEq, false_iff, not_not] at hfits
    exact iff_of_true ⟨t, hcreate⟩ hfits
  | none =>
    refine iff_of_false ?_ (hfits.1 hlong)
    rintro ⟨t, hcreate⟩
    have haction := NewRow.action_of_fits hlong hnext
    cases hv : store.violation? n.kind (n.row id) with
    | none =>
      rw [hv] at haction
      rw [create_of_ok htables haction] at hcreate
      cases hcreate
    | some v =>
      rw [hv] at haction
      obtain ⟨hfull, htooLong⟩ := Store.fault_of_violation? hv
      rw [create_of_error htables haction hfull] at hcreate
      have hfailure : Failure.ofViolation v = ⟨.tooLong t, []⟩ := by
        injection hcreate
      exact htooLong t (by rw [hfailure])

/-- If the other texts of a row are not refused, one of its texts is refused exactly if this one
is. -/
theorem exists_mem_iff_of_others {texts : List BoundedText} {p : BoundedText → Prop}
    {b : BoundedText} (hb : b ∈ texts) (hothers : ∀ b' ∈ texts, b' ≠ b → ¬ p b') :
    (∃ b' ∈ texts, p b') ↔ p b := by
  constructor
  · rintro ⟨b', hb', hp⟩
    by_cases heq : b' = b
    · exact heq ▸ hp
    · exact absurd hp (hothers b' hb' heq)
  · intro hp
    exact ⟨b, hb, hp⟩

/-- **How the limits are enforced.**  Take the tables after any run and a text in a column that has
a limit, in a row whose other texts fit.

* Created, the row is refused for its text exactly if the check of the whole text fails.
* Inserted directly, by any cells of its columns that make the same row, it is refused for its text
  exactly if what stands before the first NUL of the text is too long.
* So the tables take every text that the operations take; and the two agree on the text exactly if
  it has no NUL, if it fits, or if what stands before its first NUL does not fit. -/
theorem text_limits (run : List Event) (n : NewRow) {store : Store} {id : Int}
    (htables : (fresh.steps run).image.tables = some store)
    (hnext : store.nextId? n.kind = some id) {now : Stamp} {cells : Cells} {given : Int}
    (hknown : cells.unknown? n.kind = none) (hid : cells.idIn store n.kind = some given)
    (hrow : cells.toRow now given n.kind = .ok (n.row given)) {b : BoundedText} (hb : b ∈ n.texts)
    (hothers : ∀ b' ∈ n.texts, b' ≠ b → b'.text.length ≤ b'.limit) :
    ((∃ t, n.create (fresh.steps run) = .error ⟨.tooLong t, []⟩ (fresh.steps run)) ↔
      Limit.check b.column b.text b.limit ≠ .ok ()) ∧
    ((∃ text, insertCells now n.kind cells (fresh.steps run) =
        .error ⟨.check text, []⟩ (fresh.steps run)) ↔ b.limit < Limit.columnLength b.text) ∧
    (Limit.check b.column b.text b.limit = .ok () → Limit.columnLength b.text ≤ b.limit) ∧
    ((Limit.columnLength b.text ≤ b.limit ↔ Limit.check b.column b.text b.limit = .ok ()) ↔
      ('\x00' ∉ b.text.toList ∨ b.text.length ≤ b.limit ∨
        b.limit < Limit.columnLength b.text)) := by
  refine ⟨?_, ?_, fun hcheck => ?_, Limit.agree_iff b.column⟩
  · rw [create_tooLong_iff htables hnext]
    refine exists_mem_iff_of_others hb fun b' hb' hne hlong => ?_
    exact hlong (Limit.check_eq_ok_iff.2 (hothers b' hb' hne))
  · rw [insertCells_check_iff htables hknown hid hrow, NewRow.boundedTexts_row]
    simp only [List.mem_map, exists_exists_and_eq_and]
    refine exists_mem_iff_of_others hb fun b' hb' hne => ?_
    exact Nat.not_lt.2 ((Limit.columnLength_le b'.text).trans (hothers b' hb' hne))
  · exact (Limit.columnLength_le b.text).trans (Limit.check_eq_ok_iff.1 hcheck)

/-- A name of 65 characters, of which a NUL is the first. -/
def hiddenName : String := String.ofList ('\x00' :: List.replicate 64 'a')

/-- The columns of a user of that name. -/
def hiddenCells : Cells := [("username", .text hiddenName)]

/-- Inserted directly, the name comes to a row. -/
theorem toRow_hiddenCells (now : Stamp) (id : Int) :
    hiddenCells.toRow now id .user = .ok ⟨id, hiddenName⟩ := by
  have hgiven : hiddenCells.given .user "username" = .text hiddenName := by decide +kernel
  simp only [Cells.toRow, Cells.text, hgiven]
  rfl

/-- The name is one of those on which the two checks differ. -/
theorem text_limits_hiddenName :
    (∃ t, createUser hiddenName fresh = .error ⟨.tooLong t, []⟩ fresh) ∧
      ¬ (∃ text, insertCells .epoch .user hiddenCells fresh = .error ⟨.check text, []⟩ fresh) ∧
      ¬ (Limit.columnLength hiddenName ≤ Limit.username ↔
        Limit.check "username" hiddenName Limit.username = .ok ()) := by
  have hnext : Store.empty.nextId? .user = some 1 := by decide
  have hknown : hiddenCells.unknown? .user = none := by decide +kernel
  have hid : hiddenCells.idIn .empty .user = some 1 := by decide +kernel
  obtain ⟨hcreate, hinsert, -, hagree⟩ :=
    text_limits [] (.user hiddenName) rfl hnext hknown hid (toRow_hiddenCells .epoch 1)
      List.mem_cons_self (fun b' hb' hne => absurd (List.mem_singleton.1 hb') hne)
  refine ⟨hcreate.2 (by decide +kernel), fun h => absurd (hinsert.1 h) (by decide +kernel),
    fun h => absurd (hagree.1 h) (by decide +kernel)⟩

/-- **The two enforcements differ**: inserted directly, a name that is too long is stored, although
the check of its length and the operation that creates users refuse it. -/
theorem limits_differ :
    ¬ ∀ text : String,
      (∃ s, insertCells .epoch .user [("username", .text text)] fresh = .ok 1 s) ↔
        Limit.check "username" text Limit.username = .ok () := by
  intro hagree
  have hstored : ∃ s, insertCells .epoch .user hiddenCells fresh = .ok 1 s := by
    have hknown : hiddenCells.unknown? .user = none := by decide +kernel
    have hid : hiddenCells.idIn .empty .user = some 1 := by decide +kernel
    have hviolation : Store.empty.violation? .user ⟨1, hiddenName⟩ = none := by decide +kernel
    have haction := Action.insertCells_eq_of_toRow hknown hid (toRow_hiddenCells .epoch 1)
    rw [hviolation] at haction
    exact ⟨_, write_of_ok rfl haction⟩
  have hrefused :
      Limit.check "username" hiddenName Limit.username = .error ⟨"username", 65, 64⟩ := by
    decide +kernel
  have hok := (hagree hiddenName).1 hstored
  rw [hrefused] at hok
  cases hok

end Session

end FuzzLedger
