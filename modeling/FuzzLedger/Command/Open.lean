import FuzzLedger.Directory
import FuzzLedger.Location
import FuzzLedger.Settings

/-!
# Opening the database of a run

`openDatabase` finds the file that the settings name, sees how what is written to it can be secured
(`Location.attach`), brings its schema up to date and sets the time to wait while it is busy.

A database with a log beside its file is marked so in the file, and the mark stays: it can then only
be opened where a log can be kept, or as one that never changes.  Where a log can be kept, opening
sets the mark; elsewhere a journal stands beside the file during each write.

Opening may fail after it has touched the file.  Then an `OpenFailure` says what the file holds.

A run begins and ends without a log, an index or a journal beside the file, and nobody else has the
file open meanwhile: what an interrupted program leaves there is outside of the model.
-/

set_option autoImplicit false

namespace FuzzLedger

/-! ## Ways of writing -/

/-- What keeps an open database from being written. -/
inductive Obstacle where
  | readOnly
  /-- The journal of a write would have a name that is too long. -/
  | noJournal
  deriving DecidableEq, Repr

namespace Obstacle

/-- The failure of a write. -/
def failure : Obstacle → Failure
  | .readOnly => ⟨.engine .readOnly, []⟩
  | .noJournal => ⟨.engine .noJournal, []⟩

/-- Whether a fault of a writing call comes to light before the obstacle.  A read-only database
refuses a statement as soon as it is known to write; a journal is missed only when there is
something to write. -/
def lets : Obstacle → Fault → Bool
  | .noJournal, _ => true
  | .readOnly, .tooLong _ => true
  | .readOnly, .unknownName .. => true
  | .readOnly, .engine error => error.code == 1
  | .readOnly, _ => false

end Obstacle

/-- A writing call that does not get past an obstacle. -/
def refuseWriting {α β : Type} (obstacle : Obstacle) (call : Call α) : Call β := fun s =>
  match call s with
  | .error f _ => .error (if obstacle.lets f.fault then f else obstacle.failure) s
  | .ok _ _ => .error obstacle.failure s

/-- A writing call, carried out if nothing keeps it from that. -/
def writing {α : Type} (obstacle : Option Obstacle) (call : Call α) : Call α :=
  match obstacle with
  | none => call
  | some obstacle => refuseWriting obstacle call

/-! ## Files -/

/-- The place of a database file and what it holds, if it is there; `name` is how the database was
named.  Where nothing is, the file can be created if that is allowed and there is a directory around
it.  A directory cannot be written, and gives nothing to read. -/
def Directory.database (d : Directory) (name : String) (access : Access) (path : String) :
    Except EngineError (Place × Option FileContent) :=
  match d.settle path with
  | none => .error (.cannotOpen name)
  | some place =>
    match d place with
    | .file content => .ok (place, some content)
    | .directory => .error (if access = .read then .unreadable else .cannotOpen name)
    | .nothing =>
      if access = .create ∧ d place.parent = .directory then .ok (place, none)
      else .error (.cannotOpen name)

/-- Whether a file beside a place may have the name that a suffix makes. -/
def Place.takesSuffix (place : Place) (suffix : String) : Bool :=
  !Directory.isTooLong (place.names.getLastD "" ++ suffix)

/-- How a database file is attached. -/
structure Attachment where
  /-- Whether it is marked as having a log. -/
  logged : Bool
  obstacle : Option Obstacle
  /-- Whether the log is beside it while it is open. -/
  withLog : Bool := false
  /-- Whether the index of the log is. -/
  withIndex : Bool := false
  deriving DecidableEq, Repr

/-- An attempt to attach a file that failed. -/
structure Unattached where
  error : EngineError
  /-- Whether the file was marked as having a log before that. -/
  marked : Bool := false
  deriving DecidableEq, Repr

/-- Attaches a file, which may be marked as having a log. -/
def Location.attach (l : Location) (place : Place) (logged : Bool) :
    Except Unattached Attachment :=
  let readOnly := l.access == .read
  let withIndex := l.log == .shared || readOnly
  if l.immutable then .ok { logged, obstacle := some .readOnly }
  else if logged then
    if l.log == .none || l.log == .fixedIndex || !place.takesSuffix "-wal" then
      .error { error := .noJournal }
    else
      let obstacle := if readOnly then some .readOnly else none
      .ok { logged, obstacle, withLog := true, withIndex }
  else if l.log == .none then
    let unwritable := if place.takesSuffix "-journal" then none else some .noJournal
    .ok { logged, obstacle := if readOnly then some .readOnly else unwritable }
  else if readOnly then .error { error := .readOnly }
  else if !place.takesSuffix "-journal" then .error { error := .noJournal }
  else if l.log == .fixedIndex then .error { error := .noJournal, marked := true }
  else .ok { logged := true, obstacle := none, withLog := true, withIndex }

/-! ## Opening -/

/-- An open database. -/
structure Opened where
  session : Session
  /-- The place of its file, if it has one. -/
  place : Option Place
  attachment : Attachment
  /-- Whether opening it has made its schema. -/
  created : Bool

/-- A database that could not be opened. -/
structure OpenFailure where
  failure : Failure
  /-- The place of its file and what it holds now, if it was touched. -/
  saved : Option (Place × FileContent) := none

namespace Opened

def obstacle (o : Opened) : Option Obstacle := o.attachment.obstacle

/-- What an open database leaves in its file. -/
def saved (o : Opened) (s : Session) : Option (Place × FileContent) :=
  o.place.map fun place => (place, .database s.close o.attachment.logged)

/-- The files while a database is open and so many reports have been recorded.  The log is empty
until something is written; neither what it holds then nor the index is a text. -/
def around (o : Opened) (d : Directory) (recorded : Nat) : Directory :=
  match o.place with
  | none => d
  | some place =>
    let log : FileContent := if o.created || recorded != 0 then .bytes else .text ""
    let d := d.put place (.database o.session.image o.attachment.logged)
    let d := if o.attachment.withLog then d.put (place.beside "-wal") log else d
    if o.attachment.withIndex then d.put (place.beside "-shm") .bytes else d

end Opened

/-- Opens a database from its attached file, or from nothing.  If its schema is still to be made, it
has to be written. -/
def openAttached (file : Option (Place × Option FileContent)) (a : Attachment) :
    Except OpenFailure Opened :=
  let content := file.bind Prod.snd
  let place := file.map Prod.fst
  match FileContent.image? content with
  | .error failure => .error { failure }
  | .ok image =>
    match if image = {} then a.obstacle else none with
    | some obstacle =>
      -- a file that was not there has been made, but nothing was written to it
      let empty := if content.isNone then place.map fun place => (place, .text "") else none
      .error { failure := obstacle.failure, saved := empty }
    | none =>
      match Session.open? content with
      | .ok session => .ok { session, place, attachment := a, created := image = {} }
      | .error failure =>
        .error { failure, saved := place.map fun place => (place, .database image a.logged) }

/-- Opens a database from its file. -/
def openFile (l : Location) (place : Place) (content : Option FileContent) :
    Except OpenFailure Opened :=
  match FileContent.image? content with
  | .error failure => .error { failure }
  | .ok image =>
    match l.attach place (content.any FileContent.isLogged) with
    | .ok attachment => openAttached (some (place, content)) attachment
    | .error { error, marked } =>
      let touched := if content.isNone then some (place, .text "") else none
      .error
        { failure := ⟨.engine error, []⟩
          saved := if marked then some (place, .database image) else touched }

/-- Opens the database in a location; `name` is how it was named. -/
def Location.open (d : Directory) (name : String) (l : Location) : Except OpenFailure Opened :=
  match l.path with
  | none =>
    let obstacle := if l.access == .read || l.immutable then some .readOnly else none
    openAttached none { logged := false, obstacle }
  | some path =>
    match d.database name l.access path with
    | .error error => .error { failure := ⟨.engine error, []⟩ }
    | .ok (place, content) => openFile l place content

/-- The longest time to wait for a busy database, in milliseconds. -/
def longestTimeoutMs : Nat := 2147483647

/-- Opens the database that the settings name, creating it if there is none, and sets the time to
wait while it is busy. -/
def openDatabase (d : Directory) (settings : Settings) : Except OpenFailure Opened :=
  let opened : Except OpenFailure Opened :=
    match Location.ofName settings.dbPath with
    | .error fault => .error { failure := ⟨fault, []⟩ }
    | .ok l => l.open d settings.dbPath
  match opened with
  | .error f => .error { f with failure := f.failure.within s!"opening {settings.dbPath}" }
  | .ok o =>
    if settings.busyTimeoutMs ≤ longestTimeoutMs then .ok o
    else .error { failure := ⟨.timeoutTooLong, []⟩, saved := o.saved o.session }

end FuzzLedger
