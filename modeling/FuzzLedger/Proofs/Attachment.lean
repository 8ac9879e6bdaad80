import FuzzLedger.Command.Open
import FuzzLedger.Proofs.Opening

/-!
# What opening does to a file

Opening a database may touch its file, also if it fails: the file is created, it gets the mark of a
log, or the schema is made in it.

* `Occupant.SameData` — one constructor for each of these; the tables that were there stay.
* `Location.session_of_open` — what was opened is what its file held, brought up to date.
* `sameData_of_openDatabase` and `sameData_of_openFailure` — opening keeps the data of all files,
  whether it succeeds or fails, and closing again adds nothing to that.
-/

set_option autoImplicit false

namespace FuzzLedger

/-! ## Keeping the data -/

/-- What is in a place where a file may be. -/
def Occupant.ofFile? (content : Option FileContent) : Occupant :=
  (content.map Occupant.file).getD .nothing

/-- A database may be created in the place, or has been without its schema. -/
def Occupant.LacksSchema : Occupant → Prop
  | .nothing => True
  | .directory => False
  | .file content => FileContent.image? (some content) = .ok {}

/-- What becomes of an occupant if no table is touched. -/
inductive Occupant.SameData : Occupant → Occupant → Prop where
  | same (x : Occupant) : SameData x x
  /-- The file of a database may be marked as having a log. -/
  | marked (image : Image) (before after : Bool) :
      SameData (.file (.database image before)) (.file (.database image after))
  /-- A file is created and nothing written to it. -/
  | created : SameData .nothing (.file (.text ""))
  /-- A database is begun without its schema. -/
  | begun {x : Occupant} (logged : Bool) :
      x.LacksSchema → SameData x (.file (.database {} logged))
  /-- The schema is made, with empty tables. -/
  | schema {x : Occupant} (logged : Bool) :
      x.LacksSchema → SameData x (.file (.database .fresh logged))

namespace Directory

/-- What is where after something was saved, or nothing was. -/
def withSaved (d : Directory) (saved : Option (Place × FileContent)) : Directory :=
  match saved with
  | some (place, content) => d.put place content
  | none => d

/-- No table is touched in any place. -/
def SameData (d d' : Directory) : Prop := ∀ place, (d place).SameData (d' place)

variable {d : Directory} {place : Place}

theorem SameData.refl (d : Directory) : d.SameData d := fun place => .same (d place)

theorem sameData_put {content : FileContent} (h : (d place).SameData (.file content)) :
    d.SameData (d.withSaved (some (place, content))) := by
  intro p
  by_cases hp : p = place
  · subst hp
    simpa only [withSaved, put, if_true] using h
  · simp only [withSaved, put, if_neg hp]
    exact .same (d p)

/-- The file of a database is where it was looked for, or there is nothing. -/
theorem occupant_of_database {name path : String} {access : Access} {content : Option FileContent}
    (h : d.database name access path = .ok (place, content)) : d place = .ofFile? content := by
  unfold database at h
  split at h
  · cases h
  · rename_i found hsettle
    cases hd : d found with
    | file c =>
      rw [hd] at h
      cases h
      exact hd
    | directory =>
      rw [hd] at h
      cases h
    | nothing =>
      simp only [hd] at h
      split at h
      · cases h
        exact hd
      · cases h

end Directory

/-! ## What a file holds after it was opened -/

section Content

variable {content : Option FileContent} {image : Image}

theorem Occupant.lacksSchema_ofFile? (h : FileContent.image? content = .ok {}) :
    (Occupant.ofFile? content).LacksSchema := by
  cases content with
  | none => trivial
  | some c => exact h

/-- A file holds a database, or one is still to be created in it. -/
theorem FileContent.image?_cases (h : FileContent.image? content = .ok image) :
    (∃ logged, content = some (.database image logged)) ∨ image = {} := by
  rcases content with - | text | ⟨im, logged⟩ | -
  · cases h
    exact .inr rfl
  · simp only [FileContent.image?] at h
    split at h <;> cases h
    exact .inr rfl
  · cases h
    exact .inl ⟨logged, rfl⟩
  · cases h

/-- The mark of a log may be set in the file of a database, or in a new one. -/
theorem sameData_mark (h : FileContent.image? content = .ok image) (logged : Bool) :
    (Occupant.ofFile? content).SameData (.file (.database image logged)) := by
  rcases FileContent.image?_cases h with ⟨before, rfl⟩ | rfl
  · exact .marked image before logged
  · exact .begun logged (Occupant.lacksSchema_ofFile? h)

/-- **Opening a database leaves what it held, or creates the schema.** -/
theorem sameData_of_open? {s : Session} (h : Session.open? content = .ok s) (logged : Bool) :
    (Occupant.ofFile? content).SameData (.file (.database s.close logged)) := by
  cases himage : FileContent.image? content with
  | error f =>
    simp only [Session.open?, himage, Bind.bind, Except.bind] at h
    cases h
  | ok image =>
    rw [Session.open?_of_image himage] at h
    rcases Session.migrate_cases image with
      ⟨-, hok⟩ | ⟨hversion, htables, hok⟩ | ⟨-, f, t, herror, -⟩
    · rw [hok] at h
      cases h
      exact sameData_mark himage logged
    · rw [hok] at h
      cases h
      obtain ⟨version, tables⟩ := image
      cases hversion
      cases htables
      exact .schema logged (Occupant.lacksSchema_ofFile? himage)
    · rw [herror] at h
      cases h

end Content

/-! ## Attaching and opening -/

section Open

variable {d : Directory} {name : String} {l : Location} {o : Opened} {f : OpenFailure}
  {settings : Settings}

theorem opened_of_openAttached {file : Option (Place × Option FileContent)} {a : Attachment}
    (h : openAttached file a = .ok o) :
    Session.open? (file.bind Prod.snd) = .ok o.session ∧ o.place = file.map Prod.fst := by
  simp only [openAttached] at h
  split at h
  · cases h
  · split at h
    · cases h
    · split at h
      · rename_i hopen
        cases h
        exact ⟨hopen, rfl⟩
      · cases h

/-- What has happened to a file that could not be opened after it was attached. -/
theorem sameData_of_openAttached_error {place : Place} {content : Option FileContent}
    {a : Attachment} (hd : d place = .ofFile? content)
    (h : openAttached (some (place, content)) a = .error f) :
    d.SameData (d.withSaved f.saved) := by
  simp only [openAttached, Option.bind_some, Option.map_some] at h
  split at h
  · cases h
    exact .refl d
  · rename_i image himage
    split at h
    · cases h
      cases content with
      | none => exact Directory.sameData_put (by rw [hd]; exact .created)
      | some c => exact .refl d
    · split at h
      · cases h
      · cases h
        exact Directory.sameData_put (by rw [hd]; exact sameData_mark himage _)

/-- **What was opened is what its file held**, brought up to date. -/
theorem Location.session_of_open (h : l.open d name = .ok o) :
    ∃ content, Session.open? content = .ok o.session ∧
      ∀ place, o.place = some place → d place = .ofFile? content := by
  simp only [Location.open] at h
  split at h
  · obtain ⟨hopen, hplace⟩ := opened_of_openAttached h
    refine ⟨_, hopen, fun place hsome => ?_⟩
    rw [hplace] at hsome
    cases hsome
  · split at h
    · cases h
    · rename_i found content hfound
      simp only [openFile] at h
      split at h
      · cases h
      · split at h
        · obtain ⟨hopen, hplace⟩ := opened_of_openAttached h
          refine ⟨content, hopen, fun place hsome => ?_⟩
          rw [hplace] at hsome
          cases hsome
          exact Directory.occupant_of_database hfound
        · cases h

theorem Location.sameData_of_open_error (h : l.open d name = .error f) :
    d.SameData (d.withSaved f.saved) := by
  simp only [Location.open] at h
  split at h
  · -- a database without a file touches none
    have hnone : f.saved = none := by
      simp only [openAttached] at h
      repeat' split at h
      all_goals cases h
      all_goals rfl
    rw [hnone]
    exact .refl d
  · split at h
    · cases h
      exact .refl d
    · rename_i place content hfound
      have hd := Directory.occupant_of_database hfound
      simp only [openFile] at h
      split at h
      · cases h
        exact .refl d
      · rename_i image himage
        split at h
        · exact sameData_of_openAttached_error hd h
        · rename_i error marked hattach
          cases h
          cases marked with
          | true => exact Directory.sameData_put (by rw [hd]; exact sameData_mark himage true)
          | false =>
            cases content with
            | none => exact Directory.sameData_put (by rw [hd]; exact .created)
            | some c => exact .refl d

/-- Closing a database that was just opened keeps the data. -/
theorem Location.sameData_of_open (h : l.open d name = .ok o) :
    d.SameData (d.withSaved (o.saved o.session)) := by
  obtain ⟨content, hopen, hplace⟩ := Location.session_of_open h
  cases hsome : o.place with
  | none =>
    rw [Opened.saved, hsome]
    exact .refl d
  | some place =>
    rw [Opened.saved, hsome]
    exact Directory.sameData_put (by rw [hplace place hsome]; exact sameData_of_open? hopen _)

/-! ## The database of a run -/

/-- A database is opened in the location that the settings name, or it is not and that is all, or
the time to wait is too long and it is closed again. -/
theorem openDatabase_cases (d : Directory) (settings : Settings) :
    (∃ l o, Location.open d settings.dbPath l = .ok o ∧ openDatabase d settings = .ok o) ∨
    (∃ f, openDatabase d settings = .error f ∧ d.SameData (d.withSaved f.saved)) := by
  unfold openDatabase
  cases hname : Location.ofName settings.dbPath with
  | error fault => exact .inr ⟨_, rfl, .refl d⟩
  | ok l =>
    simp only
    cases hopen : l.open d settings.dbPath with
    | error f =>
      have hsame := Location.sameData_of_open_error hopen
      exact .inr ⟨_, rfl, hsame⟩
    | ok o =>
      simp only
      split
      · exact .inl ⟨l, o, hopen, rfl⟩
      · exact .inr ⟨_, rfl, Location.sameData_of_open hopen⟩

theorem saved_of_openDatabase (h : openDatabase d settings = .ok o) : o.session.saved = none := by
  rcases openDatabase_cases d settings with ⟨l, o', hopen, hok⟩ | ⟨f, herror, -⟩
  · rw [hok] at h
    cases h
    obtain ⟨content, hsession, -⟩ := Location.session_of_open hopen
    exact Session.saved_of_open? hsession
  · rw [herror] at h
    cases h

/-- **Opening a database and closing it keeps the data.** -/
theorem sameData_of_openDatabase (h : openDatabase d settings = .ok o) :
    d.SameData (d.withSaved (o.saved o.session)) := by
  rcases openDatabase_cases d settings with ⟨l, o', hopen, hok⟩ | ⟨f, herror, -⟩
  · rw [hok] at h
    cases h
    exact Location.sameData_of_open hopen
  · rw [herror] at h
    cases h

/-- **A database that could not be opened keeps the data.** -/
theorem sameData_of_openFailure (h : openDatabase d settings = .error f) :
    d.SameData (d.withSaved f.saved) := by
  rcases openDatabase_cases d settings with ⟨l, o, -, hok⟩ | ⟨f', herror, hsame⟩
  · rw [hok] at h
    cases h
  · rw [herror] at h
    cases h
    exact hsame

end Open

end FuzzLedger
