import FuzzLedger.Command.Verdict
import FuzzLedger.Proofs.Attachment
import FuzzLedger.Proofs.Recording
import FuzzLedger.Proofs.RoundTrip

/-!
# Ingesting files from the command line

A run of `ingest` takes files in, one after the other: each is read, parsed and recorded in a
transaction of its own, and then its summary is printed.  The run stops at the first file that
fails, and also after the first file whose summary the output refuses; that file has been recorded.

* `ingestFile_cases` — a file is taken in, or fails in one of three stages and leaves the session as
  it was.
* `IngestEnds` — the three ways in which the loop over the files ends, and what it answers in each.
  It ends in one of them (`exists_ingestEnds`), whatever comes after the file at which it stops
  (`ingestFiles_eq`).
* `ingest_commits_prefix` — the whole run: what the file of the database holds, what is printed and
  with which code the program ends go by the same files.
-/

set_option autoImplicit false

namespace FuzzLedger

/-! ## Files taken in -/

/-- Records reports in order, each in a transaction of its own and at its own reading of the
clock. -/
def Session.recordAll (clock : Clock) : Nat → List Report → Call (List Summary)
  | _, [] => return []
  | reading, r :: reports => do
    let m ← record (clock reading) r
    let rest ← recordAll clock (reading + 1) reports
    return m :: rest

/-- A file that was taken in, with its report and the summary of recording it. -/
structure IngestedFile where
  path : String
  report : Report
  summary : Summary

/-- What there is to say when a file was taken in. -/
def IngestedFile.record (file : IngestedFile) : Record :=
  ⟨file.summary.toJson, Line.summary file.path file.summary⟩

/-- What is printed when a file was taken in. -/
def IngestedFile.printed (format : OutputFormat) (file : IngestedFile) : String :=
  file.record.render format

/-- The stages in which a file can fail. -/
inductive Stage where
  | reading
  | parsing
  | recording

/-- The context of a failure in a stage. -/
def Stage.context (path : String) : Stage → String
  | .reading => s!"reading {path}"
  | .parsing => s!"parsing {path}"
  | .recording => s!"recording {path}"

namespace Directory

/-- The file under the path can be read and parsed. -/
def HasReport (d : Directory) (path : String) (report : Report) : Prop :=
  ∃ text, d.readText path = .ok text ∧ Report.ofText text = .ok report

/-- The file under the path fails in the stage. -/
inductive FailsIn (d : Directory) (obstacle : Option Obstacle) (now : Stamp) (s : Session)
    (path : String) : Stage → Failure → Prop where
  | reading {fault : Fault} :
      d.readText path = .error fault → FailsIn d obstacle now s path .reading ⟨fault, []⟩
  | parsing {text : String} {fault : Json.Fault} :
      d.readText path = .ok text → Report.ofText text = .error fault →
      FailsIn d obstacle now s path .parsing ⟨.json fault, []⟩
  | recording {report : Report} {f : Failure} {t : Session} :
      d.HasReport path report → recordReport obstacle now report s = .error f t →
      FailsIn d obstacle now s path .recording f

end Directory

/-- The files are taken in one after the other, from a reading of the clock on.  The reading also
says what is where at that time. -/
structure TakesIn (d : Nat → Directory) (obstacle : Option Obstacle) (clock : Clock) (reading : Nat)
    (files : List IngestedFile) (s t : Session) : Prop where
  /-- Nothing is taken into a database that cannot be written. -/
  writable : files ≠ [] → obstacle = none
  reports : ∀ n file, files[n]? = some file → (d (reading + n)).HasReport file.path file.report
  recorded : Session.recordAll clock reading (files.map IngestedFile.report) s =
    .ok (files.map IngestedFile.summary) t

/-- The output takes so many records from one on. -/
def Output.Takes (output : Output) (start count : Nat) : Prop :=
  ∀ n < count, output (start + n) = .taken

theorem Output.takes_nil (output : Output) (start : Nat) : output.Takes start 0 := fun n hn => by
  omega

theorem Output.Takes.cons {output : Output} {start count : Nat} (hfirst : output start = .taken)
    (h : output.Takes (start + 1) count) : output.Takes start (count + 1) := by
  rintro (- | n) hn
  · exact hfirst
  · have hnext := h n (by omega)
    rwa [Nat.add_right_comm, Nat.add_assoc] at hnext

/-- A record that the output takes is not refused. -/
theorem Output.Takes.ne_refused {output : Output} {count n : Nat} (h : output.Takes 0 count)
    (hn : n < count) (length : Nat) (error : String) : output n ≠ .refused length error := by
  have htaken := h n hn
  rw [Nat.zero_add] at htaken
  rw [htaken]
  nofun

section TakesIn

variable {d : Nat → Directory} {obstacle : Option Obstacle} {clock : Clock} {reading : Nat}
  {s t u : Session} {file : IngestedFile} {files : List IngestedFile}

theorem TakesIn.nil : TakesIn d obstacle clock reading [] s s :=
  ⟨fun h => absurd rfl h, by simp, rfl⟩

theorem TakesIn.cons (hwritable : obstacle = none)
    (hreport : (d reading).HasReport file.path file.report)
    (hok : Session.record (clock reading) file.report s = .ok file.summary t)
    (h : TakesIn d obstacle clock (reading + 1) files t u) :
    TakesIn d obstacle clock reading (file :: files) s u := by
  refine ⟨fun _ => hwritable, ?_, ?_⟩
  · rintro (- | n) other hother
    · cases hother
      exact hreport
    · have hnext := h.reports n other hother
      rwa [Nat.add_right_comm, Nat.add_assoc] at hnext
  · simp only [List.map_cons, Session.recordAll, Bind.bind, EStateM.bind, hok, h.recorded]
    rfl

/-- The first file is taken in, and then the others. -/
theorem TakesIn.uncons (h : TakesIn d obstacle clock reading (file :: files) s u) :
    ∃ t, (d reading).HasReport file.path file.report ∧
      Session.record (clock reading) file.report s = .ok file.summary t ∧
      TakesIn d obstacle clock (reading + 1) files t u := by
  obtain ⟨m, t, hrecord, hrest⟩ := bind_eq_ok h.recorded
  obtain ⟨summaries, u', hrest, hret⟩ := bind_eq_ok hrest
  cases hret
  refine ⟨t, h.reports 0 file rfl, hrecord, fun _ => h.writable (by simp), fun n other hother => ?_,
    hrest⟩
  have hnext := h.reports (n + 1) other hother
  rwa [← Nat.add_assoc, Nat.add_right_comm] at hnext

/-- Recording leaves no transaction open. -/
theorem Session.saved_record {now : Stamp} {r : Report} {m : Summary}
    (hok : record now r s = .ok m t) : t.saved = none := by
  rcases record_cases now r s with ⟨f, hf⟩ | ⟨hsaved, m', store, store', -, -, hok'⟩
  · rw [hf] at hok
    cases hok
  · rw [hok'] at hok
    cases hok
    exact hsaved

theorem Session.saved_recordAll {reports : List Report} {summaries : List Summary}
    (hsaved : s.saved = none) (hok : recordAll clock reading reports s = .ok summaries t) :
    t.saved = none := by
  induction reports generalizing reading s summaries with
  | nil =>
    cases hok
    exact hsaved
  | cons r reports ih =>
    obtain ⟨m, s', hr, hok⟩ := bind_eq_ok hok
    obtain ⟨rest, u, hrest, hok⟩ := bind_eq_ok hok
    cases hok
    exact ih (saved_record hr) hrest

end TakesIn

/-! ## One file -/

section File

variable {d : Directory} {obstacle : Option Obstacle} {now : Stamp} {path : String} {s t : Session}

theorem ingestFile_of_record {report : Report} {m : Summary} (hreport : d.HasReport path report)
    (hrecord : Session.record now report s = .ok m t) :
    ingestFile d none now path s = .ok (IngestedFile.record ⟨path, report, m⟩) t := by
  obtain ⟨text, hread, hparse⟩ := hreport
  simp only [ingestFile, hread, hparse, recordReport, hrecord, IngestedFile.record]

/-- A report is recorded, or the session is left as it was. -/
theorem recordReport_cases (obstacle : Option Obstacle) (now : Stamp) (r : Report) (s : Session) :
    (∃ m t, obstacle = none ∧ Session.record now r s = .ok m t) ∨
    ∃ f, recordReport obstacle now r s = .error f s := by
  cases obstacle with
  | some obstacle =>
    refine .inr ?_
    simp only [recordReport, Session.within, refuseWriting]
    cases Session.ensureUser r.user s with
    | ok user t => exact ⟨_, rfl⟩
    | error f t => exact ⟨_, rfl⟩
  | none =>
    rcases Session.record_cases now r s with ⟨f, hf⟩ | ⟨-, m, store, store', -, -, hok⟩
    · exact .inr ⟨f, hf⟩
    · exact .inl ⟨m, _, rfl, hok⟩

/-- A file that fails leaves the session as it was. -/
theorem Directory.FailsIn.ingestFile_eq {stage : Stage} {f : Failure}
    (h : d.FailsIn obstacle now s path stage f) :
    ingestFile d obstacle now path s = .error (f.within (stage.context path)) s := by
  cases h with
  | reading hread => simp only [ingestFile, hread, Stage.context]
  | parsing hread hparse => simp only [ingestFile, hread, hparse, Stage.context]
  | @recording report _ t hreport hrecord =>
    obtain ⟨text, hread, hparse⟩ := hreport
    rcases recordReport_cases obstacle now report s with ⟨m, t', rfl, hok⟩ | ⟨f', hf⟩
    · rw [recordReport, hok] at hrecord
      cases hrecord
    · rw [hf] at hrecord
      cases hrecord
      simp only [ingestFile, hread, hparse, hf, Stage.context]

/-- **One file** is taken in, or fails in a stage. -/
theorem ingestFile_cases (d : Directory) (obstacle : Option Obstacle) (now : Stamp) (path : String)
    (s : Session) :
    (∃ report m t, obstacle = none ∧ d.HasReport path report ∧
      Session.record now report s = .ok m t) ∨
    ∃ stage f, d.FailsIn obstacle now s path stage f := by
  cases hread : d.readText path with
  | error fault => exact .inr ⟨.reading, _, .reading hread⟩
  | ok text =>
    cases hparse : Report.ofText text with
    | error fault => exact .inr ⟨.parsing, _, .parsing hread hparse⟩
    | ok report =>
      have hreport : d.HasReport path report := ⟨text, hread, hparse⟩
      rcases recordReport_cases obstacle now report s with ⟨m, t, hwritable, hok⟩ | ⟨f, hrecord⟩
      · exact .inl ⟨report, m, t, hwritable, hreport, hok⟩
      · exact .inr ⟨.recording, f, .recording hreport hrecord⟩

end File

/-! ## All files -/

section Loop

variable (d : Nat → Directory) (obstacle : Option Obstacle) (format : OutputFormat) (clock : Clock)
  (output : Output)

/-- How ingesting some paths ends after these files were taken in, with what is printed and with
which failure: that was all; or the next file fails; or the summary of the last one is refused. -/
inductive IngestEnds (reading : Nat) (t : Session) (files : List IngestedFile) :
    List String → List String → Option Failure → Prop where
  | done : output.Takes reading files.length →
      IngestEnds reading t files (files.map IngestedFile.path)
        (files.map (IngestedFile.printed format)) none
  | failed {path : String} {stage : Stage} {f : Failure} (rest : List String) :
      output.Takes reading files.length →
      (d (reading + files.length)).FailsIn obstacle (clock (reading + files.length)) t path stage
        f →
      IngestEnds reading t files (files.map IngestedFile.path ++ path :: rest)
        (files.map (IngestedFile.printed format)) (some (f.within (stage.context path)))
  | refused {front : List IngestedFile} {last : IngestedFile} {length : Nat} {error : String}
      (rest : List String) :
      files = front ++ [last] → output.Takes reading front.length →
      output (reading + front.length) = .refused length error →
      IngestEnds reading t files (files.map IngestedFile.path ++ rest)
        (front.map (IngestedFile.printed format) ++
          [String.ofList ((last.printed format).toList.take length)])
        (some ⟨.output error, []⟩)

variable {d obstacle format clock output}

theorem IngestEnds.cons {reading : Nat} {t : Session} {file : IngestedFile}
    {files : List IngestedFile} {paths printed : List String} {failure : Option Failure}
    (htaken : output reading = .taken)
    (h : IngestEnds d obstacle format clock output (reading + 1) t files paths printed failure) :
    IngestEnds d obstacle format clock output reading t (file :: files) (file.path :: paths)
      (file.printed format :: printed) failure := by
  have hshift (n : Nat) : reading + 1 + n = reading + (n + 1) := by omega
  cases h with
  | done htakes => exact .done (.cons htaken htakes)
  | failed rest htakes hfails =>
    rw [hshift] at hfails
    exact .failed rest (.cons htaken htakes) hfails
  | @refused front last length error rest hfiles htakes hrefused =>
    rw [hshift] at hrefused
    exact @refused _ _ _ _ _ _ _ _ (file :: front) last length error rest
      (by rw [hfiles, List.cons_append]) (.cons htaken htakes) hrefused

/-- **Ingesting ends in one of three ways**, after some files were taken in. -/
theorem exists_ingestEnds (paths : List String) (reading : Nat) (s : Session) :
    ∃ files t printed failure, TakesIn d obstacle clock reading files s t ∧
      IngestEnds d obstacle format clock output reading t files paths printed failure := by
  induction paths generalizing reading s with
  | nil => exact ⟨[], s, _, _, .nil, .done (output.takes_nil reading)⟩
  | cons path paths ih =>
    rcases ingestFile_cases (d reading) obstacle (clock reading) path s with
      ⟨report, m, t, hwritable, hreport, hrecord⟩ | ⟨stage, f, hfails⟩
    · let file : IngestedFile := ⟨path, report, m⟩
      cases hreception : output reading with
      | taken =>
        obtain ⟨files, u, printed, failure, htaken, hends⟩ := ih (reading + 1) t
        exact ⟨file :: files, u, _, _, .cons hwritable hreport hrecord htaken,
          .cons hreception hends⟩
      | refused length error =>
        exact ⟨[file], t, _, _, .cons hwritable hreport hrecord .nil,
          @IngestEnds.refused _ _ _ _ _ _ _ _ [] file length error paths rfl
            (output.takes_nil reading) hreception⟩
    · exact ⟨[], s, _, _, .nil, .failed paths (output.takes_nil reading) hfails⟩

/-- **The way in which ingesting ends says all that it answers.** -/
theorem ingestFiles_eq {files : List IngestedFile} {paths printed : List String}
    {failure : Option Failure} {reading : Nat} {s t : Session}
    (htaken : TakesIn d obstacle clock reading files s t)
    (hends : IngestEnds d obstacle format clock output reading t files paths printed failure) :
    ingestFiles d obstacle format clock output reading paths s = (printed, failure, t) := by
  induction files generalizing paths printed reading s with
  | nil =>
    cases htaken.recorded
    cases hends with
    | done htakes => rfl
    | failed rest htakes hfails =>
      rw [List.length_nil, Nat.add_zero] at hfails
      simp only [List.map_nil, List.nil_append, ingestFiles, hfails.ingestFile_eq]
    | refused rest hfiles htakes hrefused => simp at hfiles
  | cons file files ih =>
    obtain ⟨u, hreport, hrecord, hrest⟩ := htaken.uncons
    have hfile :
        ingestFile (d reading) obstacle (clock reading) file.path s = .ok file.record u := by
      rw [htaken.writable (by simp)]
      exact ingestFile_of_record hreport hrecord
    have hshift (n : Nat) : reading + (n + 1) = reading + 1 + n := by omega
    -- what remains to be ingested when the summary of the first file got through
    have hnext {more printed' : List String} (hreception : output reading = .taken)
        (hmore : IngestEnds d obstacle format clock output (reading + 1) t files more printed'
          failure) :
        ingestFiles d obstacle format clock output reading (file.path :: more) s =
          (file.printed format :: printed', failure, t) := by
      simp only [ingestFiles, hfile, hreception, emit, Reception.print, ih hrest hmore]
      rfl
    have htail {n : Nat} (htakes : output.Takes reading (n + 1)) :
        output reading = .taken ∧ output.Takes (reading + 1) n := by
      refine ⟨htakes 0 (by omega), fun m hm => ?_⟩
      rw [← hshift]
      exact htakes (m + 1) (by omega)
    cases hends with
    | done htakes =>
      obtain ⟨hreception, htakes⟩ := htail htakes
      exact hnext hreception (.done htakes)
    | failed rest htakes hfails =>
      obtain ⟨hreception, htakes⟩ := htail htakes
      rw [List.length_cons, hshift] at hfails
      exact hnext hreception (.failed rest htakes hfails)
    | @refused front last length error rest hfiles htakes hrefused =>
      cases front with
      | nil =>
        cases hfiles
        cases hrest.recorded
        simp only [List.length_nil, Nat.add_zero] at hrefused
        simp only [List.map_cons, List.cons_append, ingestFiles, hfile, hrefused, emit,
          Reception.print]
        rfl
      | cons first front =>
        obtain ⟨rfl, rfl⟩ := List.cons.inj hfiles
        obtain ⟨hreception, htakes⟩ := htail htakes
        rw [List.length_cons, hshift] at hrefused
        exact hnext hreception (.refused rest rfl htakes hrefused)

end Loop

/-! ## Whole runs -/

/-- A run of `ingest` on an open database says and leaves what the loop over its files does. -/
theorem run_ingest (i : Invocation) {d : Directory} {o : Opened} {clock : Clock} {output : Output}
    (hopen : openDatabase d (i.settings d) = .ok o) {files : List IngestedFile}
    {paths printed : List String} {failure : Option Failure} {s : Session}
    (htaken : TakesIn (o.around d) o.obstacle clock 0 files o.session s)
    (hends : IngestEnds (o.around d) o.obstacle (i.settings d).format clock output 0 s files paths
      printed failure) :
    { i with command := .ingest paths }.run d clock output =
      { printed, failure, saved := o.saved s } := by
  have hsettings : { i with command := .ingest paths }.settings d = i.settings d := rfl
  simp only [Invocation.run, hsettings, hopen, Command.runOn, ingestFiles_eq htaken hends]

/-- **A run of `ingest` commits exactly the files that it reports.**  Once the database was opened,
the files up to the first that fails are read, parsed and recorded in order, and the database holds
what recording their reports leaves.  Their summaries are printed, and the program ends with 0
exactly if these are all files.  Otherwise the failure is that of the next file, in the context of
its stage, and the files after that one have no effect.

So it is as long as the output takes the summaries.  If it refuses one, this is that of the last
file taken in, the failure is that of the output, and the files after that one have no effect. -/
theorem ingest_commits_prefix {i : Invocation} {d : Directory} {o : Opened} {paths : List String}
    (clock : Clock) (output : Output) (hcommand : i.command = .ingest paths)
    (hopen : openDatabase d (i.settings d) = .ok o) :
    ∃ files s, TakesIn (o.around d) o.obstacle clock 0 files o.session s ∧
      files.map IngestedFile.path <+: paths ∧
      (i.run d clock output).saved =
        o.place.map (fun place => (place, .database s.image o.attachment.logged)) ∧
      (output.Takes 0 files.length →
        (i.run d clock output).printed =
          files.map (IngestedFile.printed (i.settings d).format) ∧
        ((Verdict.ran (i.run d clock output)).exitCode = 0 ↔
          files.map IngestedFile.path = paths) ∧
        ∀ path rest, paths = files.map IngestedFile.path ++ path :: rest →
          (∃ stage f, (o.around d files.length).FailsIn o.obstacle (clock files.length) s path
              stage f ∧
            (i.run d clock output).failure = some (f.within (stage.context path))) ∧
          ∀ rest', { i with command := .ingest (files.map IngestedFile.path ++ path :: rest') }.run
            d clock output = i.run d clock output) ∧
      ∀ n, ∀ hn : n < files.length, ∀ length error, output n = .refused length error →
        n + 1 = files.length ∧
        (i.run d clock output).printed =
          (files.take n).map (IngestedFile.printed (i.settings d).format) ++
            [String.ofList ((files[n].printed (i.settings d).format).toList.take length)] ∧
        (i.run d clock output).failure = some ⟨.output error, []⟩ ∧
        (Verdict.ran (i.run d clock output)).exitCode = 1 ∧
        ∀ rest', { i with command := .ingest (files.map IngestedFile.path ++ rest') }.run
          d clock output = i.run d clock output := by
  obtain ⟨files, s, printed, failure, htaken, hends⟩ :=
    @exists_ingestEnds (o.around d) o.obstacle (i.settings d).format clock output paths 0 o.session
  have hsaved : o.saved s =
      o.place.map fun place => (place, .database s.image o.attachment.logged) := by
    have hnone := Session.saved_recordAll (saved_of_openDatabase hopen) htaken.recorded
    simp only [Opened.saved, Session.close, hnone, Option.getD_none]
  have hi : { i with command := .ingest paths } = i := by rw [← hcommand]
  have hrun := run_ingest i hopen htaken hends
  rw [hi] at hrun
  refine ⟨files, s, htaken, ?_, by rw [hrun, ← hsaved], ?_⟩
  · cases hends with
    | done => exact List.prefix_rfl
    | failed => exact List.prefix_append _ _
    | refused => exact List.prefix_append _ _
  rw [hrun]
  cases hends with
  | done htakes =>
    refine ⟨fun _ => ⟨rfl, iff_of_true rfl rfl, fun path rest hrest => ?_⟩, ?_⟩
    · simp at hrest
    · intro n hn length error hrefused
      exact absurd hrefused (htakes.ne_refused hn length error)
  | @failed path stage f rest htakes hfails =>
    refine ⟨fun _ => ⟨rfl, iff_of_false ?_ (by simp), ?_⟩, ?_⟩
    · simp only [Verdict.exitCode]
      split <;> simp
    · intro path' rest' hrest
      obtain ⟨rfl, -⟩ := List.cons.inj (List.append_cancel_left hrest)
      refine ⟨⟨stage, f, by rwa [Nat.zero_add] at hfails, rfl⟩, fun more => ?_⟩
      exact run_ingest i hopen htaken (.failed more htakes hfails)
    · intro n hn length error hrefused
      exact absurd hrefused (htakes.ne_refused hn length error)
  | @refused front last length error rest hfiles htakes hrefused =>
    subst hfiles
    rw [Nat.zero_add] at hrefused
    refine ⟨fun hall => ?_, ?_⟩
    · exact absurd hrefused (hall.ne_refused (by simp) length error)
    · intro n hn length' error' hrefused'
      rw [List.length_append, List.length_singleton] at hn
      have hlast : n = front.length := by
        by_contra hne
        exact absurd hrefused' (htakes.ne_refused (by omega) length' error')
      subst hlast
      rw [hrefused] at hrefused'
      cases hrefused'
      refine ⟨by simp, by simp, rfl, rfl, fun more => ?_⟩
      exact run_ingest i hopen htaken (.refused more rfl htakes (by rwa [Nat.zero_add]))

/-- Two reports of the same machine; the second has the opcodes of the first. -/
def firstReport : Report :=
  ⟨"fuzzer", "tester", "ada", "arch",
   [.success "add" 3, .failure "sub" "sub x1" "x1=7" [⟨"x1", "1", "2"⟩]]⟩

def secondReport : Report :=
  ⟨"fuzzer", "tester", "bob", "arch", [.success "sub" 1, .success "add" 2]⟩

/-- A directory with these reports and a file that is no report. -/
def shelf : Directory := fun place =>
  if place = {} then .directory
  else if place.names = ["first.json"] then .file (.text firstReport.toJson.render)
  else if place.names = ["second.json"] then .file (.text secondReport.toJson.render)
  else if place.names = ["note.txt"] then .file (.text "to do")
  else .nothing

/-- Both reports, a file that is none, and the first report again. -/
def ingestShelf : Invocation :=
  { command := .ingest ["first.json", "second.json", "note.txt", "first.json"] }

/-- The database that is opened for it. -/
def shelfOpened : Opened where
  session := .fresh
  place := some { names := ["fuzzermon.sqlite3"] }
  attachment := { logged := true, obstacle := none, withLog := true, withIndex := true }
  created := true

/-- The files that are taken in. -/
def shelfFiles : List IngestedFile :=
  [⟨"first.json", firstReport, ⟨1, 1, 1, 1⟩⟩, ⟨"second.json", secondReport, ⟨2, 2, 0, 0⟩⟩]

/-- An output that fails within the second record. -/
def fullDisk : Output := fun n => if n = 1 then .refused 6 "no space left" else .taken

/-- The results of each batch with their opcodes, and the names of the opcodes. -/
def Store.digest (s : Store) : List (Int × Int) × List (Int × Int) × List TextCell :=
  (s.successes.rows.map fun x => (x.batchId, x.opcodeId),
    s.failures.rows.map fun f => (f.batchId, f.opcodeId), s.opcodes.rows.map Opcode.name)

theorem hasReport_of_render {d : Directory} {path : String} {report : Report}
    (h : d.readText path = .ok report.toJson.render) : d.HasReport path report :=
  ⟨_, h, report.spells.readDocument_render (by decide) false⟩

theorem takesIn_shelfFiles :
    ∃ s, TakesIn (shelfOpened.around shelf) none (fun _ => .epoch) 0 shelfFiles .fresh s ∧
      s.image.tables.map Store.digest =
        some ([(1, 1), (2, 2), (2, 1)], [(1, 2)], [.text "add", .text "sub"]) := by
  have heval : (match Session.recordAll (fun _ => .epoch) 0 [firstReport, secondReport] .fresh with
      | .ok summaries s => decide (summaries = shelfFiles.map IngestedFile.summary ∧
          s.image.tables.map Store.digest =
            some ([(1, 1), (2, 2), (2, 1)], [(1, 2)], [.text "add", .text "sub"]))
      | .error .. => false) = true := by decide +kernel
  cases hrecorded : Session.recordAll (fun _ => .epoch) 0 [firstReport, secondReport] .fresh with
  | error f s =>
    rw [hrecorded] at heval
    cases heval
  | ok summaries s =>
    rw [hrecorded] at heval
    obtain ⟨rfl, hdigest⟩ := of_decide_eq_true heval
    refine ⟨s, ⟨fun _ => rfl, ?_, hrecorded⟩, hdigest⟩
    rintro (- | - | n) file hfile
    · cases hfile
      exact hasReport_of_render rfl
    · cases hfile
      exact hasReport_of_render rfl
    · cases hfile

/-- Both reports are recorded, the second with the opcodes of the first, and printed; the third file
is not parsed, and the fourth does not matter.  If the output fails within the second summary, the
same is recorded. -/
theorem ingest_stops_at_note :
    ∃ files s, TakesIn (shelfOpened.around shelf) none (fun _ => .epoch) 0 files .fresh s ∧
      files.map IngestedFile.path = ["first.json", "second.json"] ∧
      s.image.tables.map Store.digest =
        some ([(1, 1), (2, 2), (2, 1)], [(1, 2)], [.text "add", .text "sub"]) ∧
      ingestShelf.run shelf (fun _ => .epoch) .ideal =
        { printed :=
            ["first.json: batch 1 (1 successes, 1 failures, 1 states)\n",
             "second.json: batch 2 (2 successes, 0 failures, 0 states)\n"]
          failure := some ⟨.json (.text .wrong), ["parsing note.txt"]⟩
          saved := some ({ names := ["fuzzermon.sqlite3"] }, .database s.image) } ∧
      ingestShelf.run shelf (fun _ => .epoch) fullDisk =
        { printed := ["first.json: batch 1 (1 successes, 1 failures, 1 states)\n", "second"]
          failure := some ⟨.output "no space left", []⟩
          saved := some ({ names := ["fuzzermon.sqlite3"] }, .database s.image) } := by
  have hopen : openDatabase shelf (ingestShelf.settings shelf) = .ok shelfOpened := rfl
  obtain ⟨t, hshelf, hdigest⟩ := takesIn_shelfFiles
  have hclose : t.close = t.image := by
    rw [Session.close, Session.saved_recordAll rfl hshelf.recorded, Option.getD_none]
  -- both runs are told in full
  have hnote : Report.ofText "to do" = .error (.text .wrong) := by decide +kernel
  have hideal : ingestShelf.run shelf (fun _ => .epoch) .ideal =
      { printed := shelfFiles.map (IngestedFile.printed .text)
        failure := some ⟨.json (.text .wrong), ["parsing note.txt"]⟩
        saved := some ({ names := ["fuzzermon.sqlite3"] }, .database t.close) } :=
    run_ingest ingestShelf hopen hshelf
      (.failed ["first.json"] (fun _ _ => rfl) (.parsing rfl hnote))
  have hbroken : ingestShelf.run shelf (fun _ => .epoch) fullDisk =
      { printed := (shelfFiles.take 1).map (IngestedFile.printed .text) ++
          [String.ofList ((shelfFiles[1].printed .text).toList.take 6)]
        failure := some ⟨.output "no space left", []⟩
        saved := some ({ names := ["fuzzermon.sqlite3"] }, .database t.close) } := by
    refine run_ingest ingestShelf hopen hshelf
      (@IngestEnds.refused _ _ _ _ _ _ _ _ (shelfFiles.take 1) _ 6 "no space left"
        ["note.txt", "first.json"] rfl (fun n hn => ?_) rfl)
    obtain rfl : n = 0 := by simpa [shelfFiles] using hn
    rfl
  have hlines : shelfFiles.map (IngestedFile.printed .text) =
        ["first.json: batch 1 (1 successes, 1 failures, 1 states)\n",
         "second.json: batch 2 (2 successes, 0 failures, 0 states)\n"] ∧
      (shelfFiles.take 1).map (IngestedFile.printed .text) ++
          [String.ofList ((shelfFiles[1].printed .text).toList.take 6)] =
        ["first.json: batch 1 (1 successes, 1 failures, 1 states)\n", "second"] := by decide +kernel
  rw [hlines.1, hclose] at hideal
  rw [hlines.2, hclose] at hbroken
  -- and the first of them is the one that the theorem speaks of
  obtain ⟨files, s, htaken, hpaths, hsaved, hprinted, -⟩ :=
    ingest_commits_prefix (i := ingestShelf) (fun _ => .epoch) .ideal rfl hopen
  rw [hideal] at hsaved hprinted
  have himage : s.image = t.image := by
    have hcontent := congrArg Prod.snd (Option.some.inj hsaved)
    exact (FileContent.database.inj hcontent).1.symm
  have hlength : files.length = 2 := by
    have hcount := congrArg List.length (hprinted fun _ _ => rfl).1
    rw [List.length_map] at hcount
    exact hcount.symm
  refine ⟨files, s, htaken, ?_, ?_, ?_, ?_⟩
  · rw [List.prefix_iff_eq_take.1 hpaths, List.length_map, hlength]
    rfl
  · rw [himage, hdigest]
  · rw [hideal, himage]
  · rw [hbroken, himage]

end FuzzLedger
