import FuzzLedger.Proofs.Lifetime

/-!
# Opening a database loses nothing

A database is opened by running the migrations that it lacks on a new session.  A script is a
transaction of its own; if it fails on the way, the transaction is still open when the session is
closed, and closing undoes it.

* `migrate_cases` — what can come of it: nothing is to be done, or the schema is created where there
  is none, or the database is refused, and then it holds what it held before.
* `Settled.open?_close` — a session on the newest schema without an open transaction is the same
  after its file was closed and opened.  Calls keep sessions so (`Settled.serve`).
* `Settled.play_eq` — hence a run of calls gives the same replies, wherever the file is closed and
  opened in between.
* `opening_keeps_data` — all of this for every file that holds a database or is still to hold one.
-/

set_option autoImplicit false

namespace FuzzLedger

/-! ## Runs of calls on a file -/

/-- A call on a session. -/
inductive LibraryCall (α : Type) where
  | request (r : Request)
  /-- A question about the tables, which comes to the table of `e` first. -/
  | query (e : Entity) (read : Store → Except Fault α)
  /-- A question that needs no table: for the schema version, or whether a table exists. -/
  | inspect (read : Session → α)

/-- A call, or closing the file and opening it again. -/
inductive Move (α : Type) where
  | call (c : LibraryCall α)
  | reopen

/-- The call of a move. -/
def Move.call? {α : Type} : Move α → Option (LibraryCall α)
  | .call c => some c
  | .reopen => none

/-- What a computation answers, or the failure that it ends with. -/
def replyOf {ε σ α : Type} : EStateM.Result ε σ α → Except ε α
  | .ok x _ => .ok x
  | .error f _ => .error f

/-- What a database holds after an attempt to open it, once the session is closed. -/
def Image.afterOpening (image : Image) : Image :=
  (finalState (Session.migrate { image })).close

namespace Session

variable {α : Type}

/-- Carries out a call. -/
def serve : LibraryCall α → Call (Answer ⊕ α)
  | .request r => return .inl (← perform r)
  | .query e read => return .inr (← query e read)
  | .inspect read => return .inr (read (← get))

/-- The replies to a run of calls, and the session after it. -/
def transcript (s : Session) :
    List (LibraryCall α) → List (Except Failure (Answer ⊕ α)) × Session
  | [] => ([], s)
  | c :: calls =>
    let (replies, final) := (finalState (serve c s)).transcript calls
    (replyOf (serve c s) :: replies, final)

/-- The same for a run in which the file is closed and opened in between.  It cannot go on where the
file cannot be opened. -/
def play (s : Session) :
    List (Move α) → Except Failure (List (Except Failure (Answer ⊕ α)) × Session)
  | [] => .ok ([], s)
  | .call c :: moves => do
    let (replies, final) ← (finalState (serve c s)).play moves
    return (replyOf (serve c s) :: replies, final)
  | .reopen :: moves => do
    let s ← open? (some (.database s.close))
    s.play moves

/-! ## What can come of opening -/

/-- The script that makes a new database: its transaction is committed. -/
theorem migrate_new {image : Image} (hversion : image.version = 0) (htables : image.tables = none) :
    migrate { image } = .ok () fresh := by
  obtain ⟨version, tables⟩ := image
  subst hversion htables
  rfl

/-- The script does not get past tables that exist, and its transaction stays open. -/
theorem migrate_existing {image : Image} {store : Store} (hversion : image.version = 0)
    (htables : image.tables = some store) :
    migrate { image } = .error ⟨.schemaExists, []⟩ { image, saved := some image } := by
  obtain ⟨version, tables⟩ := image
  subst hversion htables
  rfl

/-- **Opening a database** finds the newest schema, creates the schema where there is none, or
refuses; a refused database closes to what it was. -/
theorem migrate_cases (image : Image) :
    (image.version = migrations.length ∧ migrate { image } = .ok () { image }) ∨
    (image.version = 0 ∧ image.tables = none ∧ migrate { image } = .ok () fresh) ∨
    (¬ (image.version = migrations.length ∨ image.version = 0 ∧ image.tables = none) ∧
      ∃ f s, migrate { image } = .error f s ∧ s.close = image) := by
  have hlength : (migrations.length : Int) = 1 := rfl
  rcases lt_trichotomy image.version 0 with hneg | hzero | hpos
  · have hrefused : migrate { image } = .error ⟨.invalidVersion image.version, []⟩ { image } := by
      rw [migrate_eq, if_pos hneg]
    exact .inr (.inr ⟨by omega, _, _, hrefused, rfl⟩)
  · cases htables : image.tables with
    | none => exact .inr (.inl ⟨hzero, rfl, migrate_new hzero htables⟩)
    | some store =>
      refine .inr (.inr ⟨?_, _, _, migrate_existing hzero htables, rfl⟩)
      simp [hzero, hlength]
  · by_cases hnewest : image.version = migrations.length
    · exact .inl ⟨hnewest, migrate_of_newest hnewest⟩
    · have hnewer : (migrations.length : Int) < image.version := by omega
      have hrefused : migrate { image } = .error ⟨.newerVersion image.version, []⟩ { image } := by
        rw [migrate_eq, if_neg (not_lt_of_gt hpos), if_pos hnewer]
      exact .inr (.inr ⟨by omega, _, _, hrefused, rfl⟩)

theorem open?_of_image {file : Option FileContent} {image : Image}
    (hfile : FileContent.image? file = .ok image) :
    open? file =
      match migrate { image } with
      | .ok _ s => .ok s
      | .error f _ => .error f := by
  simp only [open?, hfile, Bind.bind, Except.bind]
  rfl

/-- A database that was opened has no transaction open. -/
theorem saved_of_open? {file : Option FileContent} {s : Session} (h : open? file = .ok s) :
    s.saved = none := by
  cases hfile : FileContent.image? file with
  | error f =>
    simp only [open?, hfile, Bind.bind, Except.bind] at h
    cases h
  | ok image =>
    rw [open?_of_image hfile] at h
    rcases migrate_cases image with ⟨-, hok⟩ | ⟨-, -, hok⟩ | ⟨-, f, t, herror, -⟩
    · rw [hok] at h
      cases h
      rfl
    · rw [hok] at h
      cases h
      rfl
    · rw [herror] at h
      cases h

/-! ## Closing and opening between calls -/

/-- The session is on the newest schema and has no transaction open. -/
structure Settled (s : Session) : Prop where
  saved : s.saved = none
  version : s.image.version = migrations.length

variable {s : Session}

/-- A settled session comes back from its file as it was. -/
theorem Settled.open?_close (h : s.Settled) : open? (some (.database s.close)) = .ok s := by
  obtain ⟨image, saved⟩ := s
  obtain ⟨rfl, hversion⟩ := h
  exact open?_of_newest hversion

theorem Settled.serve (h : s.Settled) (c : LibraryCall α) :
    (finalState (serve c s)).Settled := by
  have hkeep {tables : Option Store} {t : Session}
      (ht : t = { s with image := { s.image with tables } }) : t.Settled := by
    subst ht
    exact ⟨h.saved, h.version⟩
  cases c with
  | request r =>
    rw [Session.serve, finalState_map, ← after_eq]
    obtain ⟨tables, hafter⟩ := after_eq_withTables h.saved r
    exact hkeep hafter
  | query e read =>
    rw [Session.serve, finalState_map]
    obtain ⟨tables, hquery⟩ := finalState_act (noTable e) _ s
    exact hkeep hquery
  | inspect read => exact h

/-- **Closing and opening in between changes no reply and not the session.** -/
theorem Settled.play_eq (h : s.Settled) (moves : List (Move α)) :
    s.play moves = .ok (s.transcript (moves.filterMap Move.call?)) := by
  induction moves generalizing s with
  | nil => rfl
  | cons move moves ih =>
    cases move with
    | call c =>
      simp only [play, ih (h.serve c), Bind.bind, Except.bind]
      rfl
    | reopen =>
      simp only [play, h.open?_close, Bind.bind, Except.bind, ih h]
      rfl

/-- **Opening loses nothing.**  Take a file that holds a database, or is still to hold one because
it is absent or empty.  It can be opened exactly if its schema version is the newest one, or is zero
and there are no tables.  Then the session is on the newest schema, with the tables that were there
if that was the version before and with new empty ones if the version was zero, and so is the
database; calls on it have the same replies and the same effects, wherever the file is closed and
opened in between.  Otherwise the database holds what it held before. -/
theorem opening_keeps_data (α : Type) {file : Option FileContent} {image : Image}
    (hfile : FileContent.image? file = .ok image) :
    ((∃ s, open? file = .ok s) ↔
      image.version = migrations.length ∨ image.version = 0 ∧ image.tables = none) ∧
    (∀ s, open? file = .ok s →
      s.saved = none ∧ s.image.version = migrations.length ∧ image.afterOpening = s.image ∧
      (image.version = migrations.length → s.image.tables = image.tables) ∧
      (image.version = 0 → s.image.tables = some .empty) ∧
      ∀ moves : List (Move α), s.play moves = .ok (s.transcript (moves.filterMap Move.call?))) ∧
    ∀ f, open? file = .error f → image.afterOpening = image := by
  rw [open?_of_image hfile, Image.afterOpening]
  rcases migrate_cases image with
    ⟨hversion, hok⟩ | ⟨hversion, htables, hok⟩ | ⟨hnot, f, t, herror, hclose⟩
  · rw [hok]
    refine ⟨⟨fun _ => .inl hversion, fun _ => ⟨_, rfl⟩⟩, ?_, fun f hf => by cases hf⟩
    rintro s ⟨⟩
    have hnonzero : image.version ≠ 0 := by
      rw [hversion]
      decide
    exact ⟨rfl, hversion, rfl, fun _ => rfl, fun hzero => absurd hzero hnonzero,
      Settled.play_eq ⟨rfl, hversion⟩⟩
  · rw [hok]
    refine ⟨⟨fun _ => .inr ⟨hversion, htables⟩, fun _ => ⟨_, rfl⟩⟩, ?_, fun f hf => by cases hf⟩
    rintro s ⟨⟩
    have hother : image.version ≠ migrations.length := by
      rw [hversion]
      decide
    exact ⟨rfl, rfl, rfl, fun hnewest => absurd hnewest hother, fun _ => rfl,
      Settled.play_eq ⟨rfl, rfl⟩⟩
  · rw [herror]
    refine ⟨⟨?_, fun h => absurd h hnot⟩, fun s hs => (by cases hs), fun _ _ => hclose⟩
    rintro ⟨s, hs⟩
    cases hs

/-- A database whose version was set back to zero keeps its tables, though the script has begun
there.  A file that is not there is opened with empty tables, and closing it between a report and a
deletion makes no difference. -/
theorem opening_unversioned :
    (open? (some (.database { exhausted.image with version := 0 })) = .error ⟨.schemaExists, []⟩ ∧
      { exhausted.image with version := 0 }.afterOpening = { exhausted.image with version := 0 }) ∧
    ∃ s, open? none = .ok s ∧ s.image.tables = some .empty ∧
      s.play (α := Int) [.call (.request (.record .epoch oneSuccess)), .reopen,
          .call (.request (.delete .arch 1)), .reopen, .call (.inspect (·.image.version))] =
        .ok (s.transcript [.request (.record .epoch oneSuccess), .request (.delete .arch 1),
          .inspect (·.image.version)]) := by
  have hback : open? (some (.database { exhausted.image with version := 0 })) =
      .error ⟨.schemaExists, []⟩ := rfl
  have habsent : FileContent.image? none = .ok {} := rfl
  obtain ⟨-, -, -, -, hempty, hplay⟩ := (opening_keeps_data Int habsent).2.1 fresh rfl
  exact ⟨⟨hback, (opening_keeps_data Unit rfl).2.2 _ hback⟩, fresh, rfl, hempty rfl, hplay _⟩

end Session

end FuzzLedger
