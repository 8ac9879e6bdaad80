import FuzzLedger.Store.Insert

/-!
# Deleting rows

What becomes of the rows that refer to a deleted one is said of each column that refers to rows
(`ForeignKey.onDelete`).  Along columns that cascade the deletion goes on: `Store.dependsOn` follows
the references of a row upwards; as every reference leads to a kind of smaller rank, the rank of the
row's kind bounds the length of the way.  A row that would be left behind with a reference to a
deleted one keeps all of them from being deleted.
-/

set_option autoImplicit false

namespace FuzzLedger

namespace Store

/-- Whether a row is the target, or refers in at most `steps` steps to it. -/
def dependsOn (s : Store) (target : RowRef) : Nat → (e : Entity) → Row e → Bool
  | 0, e, r => (e, Row.id e r) == target
  | steps + 1, e, r =>
    (e, Row.id e r) == target ||
      (Row.referencesOn .cascade e r).any fun ref =>
        match s.find? ref.1 ref.2 with
        | some parent => s.dependsOn target steps ref.1 parent
        | none => false

/-- The rows of a kind that stay when the target is deleted. -/
def survivors (s : Store) (target : RowRef) (e : Entity) : Table e :=
  { s.table e with rows := (s.rows e).filter fun r => !s.dependsOn target e.rank e r }

/-- The store without the target and all that depends on it. -/
def without (s : Store) (target : RowRef) : Store where
  users := s.survivors target .user
  arches := s.survivors target .arch
  hosts := s.survivors target .host
  batches := s.survivors target .batch
  opcodes := s.survivors target .opcode
  successes := s.survivors target .testSuccess
  failures := s.survivors target .testFailure
  states := s.survivors target .testFailureState

@[simp] theorem table_without (s : Store) (target : RowRef) (e : Entity) :
    (s.without target).table e = s.survivors target e := by
  cases e <;> rfl

/-- Whether all rows find the rows that they refer to through columns that do not cascade. -/
def keepsRefused (s : Store) : Bool :=
  Entity.all.all fun e => (s.rows e).all fun r => (Row.referencesOn .refuse e r).all s.has

end Store

/-- Deletes a row and all that depends on it; answers whether there was such a row. -/
def Action.delete (e : Entity) (id : Int) : Action Bool := fun s =>
  if s.has (e, id) then
    if (s.without (e, id)).keepsRefused then .ok true (s.without (e, id))
    else .error (.ofViolation .danglingReference) s
  else .ok false s

/-! ## All references cascade -/

/-- Every column that refers to rows cascades. -/
theorem Entity.cascades {e : Entity} {key : ForeignKey} (h : key ∈ e.foreignKeys) :
    key.onDelete = .cascade := by
  revert key
  cases e <;> decide

namespace Row

variable {e : Entity}

theorem onDelete_of_mem_links {r : Row e} {link : ForeignKey × Int} (h : link ∈ links e r) :
    link.1.onDelete = .cascade := by
  obtain ⟨key, id⟩ := link
  exact Entity.cascades (List.of_mem_zip h).1

theorem referencesOn_cascade (r : Row e) : referencesOn .cascade e r = references e r := by
  unfold referencesOn references
  rw [List.filter_eq_self.2 fun link hlink => by rw [onDelete_of_mem_links hlink]; rfl]

theorem referencesOn_refuse (r : Row e) : referencesOn .refuse e r = [] := by
  unfold referencesOn
  rw [List.filter_eq_nil_iff.2 fun link hlink => by rw [onDelete_of_mem_links hlink]; decide]
  rfl

end Row

theorem Store.keepsRefused_eq_true (s : Store) : s.keepsRefused = true := by
  simp [keepsRefused, Row.referencesOn_refuse]

/-- So a deletion is never refused. -/
theorem Action.delete_eq (e : Entity) (id : Int) (s : Store) :
    Action.delete e id s =
      if s.has (e, id) then .ok true (s.without (e, id)) else .ok false s := by
  rw [Action.delete, if_pos (Store.keepsRefused_eq_true _)]

end FuzzLedger
