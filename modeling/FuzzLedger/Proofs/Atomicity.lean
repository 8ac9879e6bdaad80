import FuzzLedger.Proofs.IngestCommand

/-!
# Commands that fail leave no trace

Apart from `ingest`, a command makes at most one call that writes, and this call comes last.  So a
failure of the call finds nothing done yet.  What is left then is to print one record, in which the
output may fail.

* `Action.FailsCleanly`, `Session.FailsCleanly` — a failure leaves the store, or the session, as it
  was.  This goes through checks of lengths and through questions asked before.
* `Session.Observes` — the session is left as it was in any case.
* `Invocation.run_cases` — a run fails to open its database, or is that of its command on the open
  one.
* `Invocation.run_eq_receive` — the output has no say in what a run does, only in what gets through
  of its record.
* `run_atomic` — every command but `ingest`, run anywhere and with any output.
-/

set_option autoImplicit false

namespace FuzzLedger

/-! ## Actions that fail cleanly -/

namespace Action

variable {α β : Type}

/-- If the action fails, the store is as it was. -/
def FailsCleanly (a : Action α) : Prop := ∀ s f t, a s = .error f t → t = s

theorem FailsCleanly.checkLength_bind {field value : String} {limit : Nat} {f : Unit → Action α}
    (hf : FailsCleanly (f ())) : FailsCleanly (checkLength field value limit >>= f) := by
  intro s fault t herror
  by_cases hle : value.length ≤ limit
  · rw [checkLength, Limit.check_eq_ok_iff.2 hle] at herror
    exact hf s fault t herror
  · rw [checkLength, Limit.check_eq_error (by omega)] at herror
    cases herror
    rfl

theorem FailsCleanly.map {a : Action α} (h : FailsCleanly a) (f : α → β) :
    FailsCleanly (do return f (← a)) := by
  intro s fault t herror
  simp only [Bind.bind, EStateM.bind] at herror
  cases ha : a s with
  | ok x u =>
    rw [ha] at herror
    cases herror
  | error fault' u =>
    rw [ha] at herror
    cases herror
    exact h s fault t ha

theorem failsCleanly_insertNew (e : Entity) (build : Int → Row e) :
    FailsCleanly (insertNew e build) := by
  intro s fault t herror
  rw [insertNew_eq] at herror
  split at herror
  · cases herror; rfl
  · split at herror
    · cases herror; rfl
    · cases herror

/-- A row is added last, and what is answered is made from it. -/
theorem failsCleanly_newRow (e : Entity) (build : Int → Row e) (f : Row e → α) :
    FailsCleanly (do return f (← insertNew e build)) :=
  (failsCleanly_insertNew e build).map f

theorem failsCleanly_delete (e : Entity) (id : Int) : FailsCleanly (delete e id) := by
  intro s fault t herror
  unfold delete at herror
  split at herror
  · split at herror
    · cases herror
    · cases herror
      rfl
  · cases herror

end Action

/-! ## Calls that fail cleanly -/

namespace Session

variable {α β : Type}

/-- If the call fails outside of transactions, the session is as it was. -/
def FailsCleanly (call : Call α) : Prop :=
  ∀ s, s.saved = none → ∀ f t, call s = .error f t → t = s

/-- Whatever comes of the call, the session is as it was. -/
def Observes (call : Call α) : Prop := ∀ s, finalState (call s) = s

theorem Observes.failsCleanly {call : Call α} (h : Observes call) : FailsCleanly call := by
  intro s _ f t herror
  have hfinal := h s
  rw [herror] at hfinal
  exact hfinal

theorem Observes.map {call : Call α} (h : Observes call) (f : α → β) :
    Observes (do return f (← call)) := by
  intro s
  rw [finalState_map]
  exact h s

theorem observes_query (e : Entity) (read : Store → Except Fault α) : Observes (query e read) := by
  intro s
  obtain ⟨⟨version, tables⟩, saved⟩ := s
  cases tables with
  | none => rfl
  | some store =>
    simp only [query, act]
    cases read store <;> rfl

theorem FailsCleanly.map {call : Call α} (h : FailsCleanly call) (f : α → β) :
    FailsCleanly (do return f (← call)) := by
  intro s hsaved fault t herror
  simp only [Bind.bind, EStateM.bind] at herror
  cases hcall : call s with
  | ok x u =>
    rw [hcall] at herror
    cases herror
  | error fault' u =>
    rw [hcall] at herror
    cases herror
    exact h s hsaved fault t hcall

/-- What is asked before a call changes nothing. -/
theorem FailsCleanly.after {call : Call α} {f : α → Call β} (hcall : Observes call)
    (hf : ∀ x, FailsCleanly (f x)) : FailsCleanly (call >>= f) := by
  intro s hsaved fault t herror
  have hfinal := hcall s
  simp only [Bind.bind, EStateM.bind] at herror
  cases hs : call s with
  | ok x u =>
    rw [hs] at herror hfinal
    simp only [finalState] at hfinal
    rw [hfinal] at herror
    exact hf x s hsaved fault t herror
  | error fault' u =>
    rw [hs] at herror hfinal
    cases herror
    exact hfinal

theorem failsCleanly_act {a : Action α} (h : a.FailsCleanly) (bare : Failure) :
    FailsCleanly (act bare a) := by
  rintro ⟨⟨version, tables⟩, saved⟩ - fault t herror
  cases tables with
  | none =>
    cases herror
    rfl
  | some store =>
    simp only [act] at herror
    cases ha : a store with
    | ok x store' =>
      rw [ha] at herror
      cases herror
    | error fault' store' =>
      rw [ha] at herror
      cases herror
      rw [h store fault store' ha]

/-- Outside of transactions there is none to be given up. -/
theorem failsCleanly_write {a : Action α} (h : a.FailsCleanly) (bare : Failure) :
    FailsCleanly (write bare a) := by
  intro s hsaved fault t herror
  simp only [write] at herror
  cases hact : act bare a s with
  | ok x u =>
    rw [hact] at herror
    cases herror
  | error fault' u =>
    have hu := failsCleanly_act h bare s hsaved fault' u hact
    subst hu
    have habandon : u.abandon = u := by
      obtain ⟨image, saved⟩ := u
      subst hsaved
      rfl
    simp only [hact, habandon, ite_self] at herror
    cases herror
    rfl

theorem failsCleanly_refuseWriting (obstacle : Obstacle) (call : Call α) :
    FailsCleanly (refuseWriting obstacle call : Call β) := by
  intro s _ fault t herror
  unfold refuseWriting at herror
  split at herror <;> cases herror <;> rfl

theorem failsCleanly_writing {call : Call α} (h : FailsCleanly call)
    (obstacle : Option Obstacle) : FailsCleanly (writing obstacle call) := by
  cases obstacle with
  | none => exact h
  | some obstacle => exact failsCleanly_refuseWriting obstacle call

end Session

/-! ## Commands -/

open FuzzLedger.Action Session in
/-- **A row that cannot be created leaves nothing behind**: names are looked up and lengths checked
before the row is added. -/
theorem CreateCommand.failsCleanly_perform (now : Stamp) (row : CreateCommand) :
    FailsCleanly (row.perform now) := by
  have hnamed (e : Entity) (name : String) : Observes (namedRow e name) := observes_query e _
  cases row with
  | user username =>
    exact (failsCleanly_write (.checkLength_bind (failsCleanly_newRow _ _ _)) _).map _
  | arch name =>
    exact (failsCleanly_write (.checkLength_bind (failsCleanly_newRow _ _ _)) _).map _
  | host hostname archName =>
    refine .after (hnamed .arch archName) fun arch => ?_
    exact (failsCleanly_write (.checkLength_bind (failsCleanly_newRow _ _ _)) _).map _
  | opcode name archName =>
    refine .after (hnamed .arch archName) fun arch => ?_
    exact (failsCleanly_write (.checkLength_bind (failsCleanly_newRow _ _ _)) _).map _
  | batch fuzzerHost testingHost username =>
    refine .after (hnamed .host testingHost) fun host => ?_
    refine .after (hnamed .user username) fun user => ?_
    exact (failsCleanly_act (.checkLength_bind (failsCleanly_newRow _ _ _)) _).map _
  | success batchId opcodeId count => exact (failsCleanly_write (failsCleanly_newRow _ _ _) _).map _
  | failure batchId opcodeId pretty arguments =>
    exact (failsCleanly_write (.checkLength_bind (failsCleanly_newRow _ _ _)) _).map _
  | state failureId location expected actual =>
    refine .map (failsCleanly_write (.checkLength_bind (.checkLength_bind (.checkLength_bind ?_)))
      _) _
    exact failsCleanly_newRow _ _ _

/-- A row that is not there is not deleted. -/
theorem failsCleanly_performDelete (e : Entity) (id : Int) :
    Session.FailsCleanly (performDelete e id) := by
  intro s hsaved fault t herror
  simp only [performDelete, Bind.bind, EStateM.bind] at herror
  cases hdelete : Session.delete e id s with
  | error fault' u =>
    rw [hdelete] at herror
    cases herror
    exact Session.failsCleanly_write (Action.failsCleanly_delete e id) _ s hsaved fault t hdelete
  | ok found u =>
    rw [hdelete] at herror
    cases found with
    | true => cases herror
    | false =>
      cases herror
      -- no row was found, so the store is as it was
      obtain ⟨⟨version, tables⟩, saved⟩ := s
      cases tables with
      | none => cases hdelete
      | some store =>
        simp only [Session.delete, Session.write, Session.act, Action.delete_eq] at hdelete
        by_cases hhas : store.has (e, id) = true
        · simp only [if_pos hhas] at hdelete
          cases hdelete
        · simp only [if_neg hhas] at hdelete
          cases hdelete
          rfl

/-! ## What is printed -/

/-- What becomes of a run when an output receives what it prints, which is one record at most. -/
def Outcome.receive (reception : Reception) (outcome : Outcome) : Outcome :=
  match outcome.printed with
  | [line] =>
    let (printed, failure) := reception.print line
    { outcome with printed := [printed], failure }
  | _ => outcome

/-- What is where after a run. -/
def Outcome.directory (outcome : Outcome) (d : Directory) : Directory := d.withSaved outcome.saved

theorem runVersion_eq_receive (output : Output) :
    runVersion output = (runVersion .ideal).receive (output 0) := by
  cases h : output 0 <;> simp [runVersion, h, Output.ideal, Reception.print, Outcome.receive]

section Run

variable {o : Opened} {call : Call Record} {format : OutputFormat}

theorem runCall_eq_receive (output : Output) :
    runCall output format o call = (runCall .ideal format o call).receive (output 0) := by
  unfold runCall
  cases call o.session with
  | error f s => rfl
  | ok record s =>
    cases output 0 <;> simp only [emit, Output.ideal, Reception.print, Outcome.receive]

/-- A run of one call prints its record, or it prints nothing and keeps the session. -/
theorem runCall_cases (h : Session.FailsCleanly call) (hsaved : o.session.saved = none) :
    (∃ record s, call o.session = .ok record s ∧
      runCall .ideal format o call =
        { printed := [record.render format], saved := o.saved s }) ∨
    ∃ f, runCall .ideal format o call = { failure := some f, saved := o.saved o.session } := by
  unfold runCall
  cases hcall : call o.session with
  | ok record s => exact .inl ⟨record, s, rfl, rfl⟩
  | error f s => exact .inr ⟨f, by rw [h o.session hsaved f s hcall]⟩

theorem runCall_of_observes (output : Output) (h : Session.Observes call) :
    (runCall output format o call).saved = o.saved o.session := by
  have hfinal := h o.session
  unfold runCall
  cases hcall : call o.session with
  | ok record s =>
    rw [hcall] at hfinal
    exact congrArg o.saved hfinal
  | error f s =>
    rw [hcall] at hfinal
    exact congrArg o.saved hfinal

end Run

/-! ## Commands on an open database -/

namespace Command

/-- The call that a command comes to, for those that come to one. -/
def call? (clock : Clock) (settings : Settings) (obstacle : Option Obstacle) :
    Command → Option (Call Record)
  | .version => none
  | .init => some (performInit settings.dbPath)
  | .create row => some (writing obstacle (row.perform (clock 0)))
  | .showBatch id => some (performShowBatch id)
  | .showBatches => some performShowBatches
  | .delete e id => some (writing obstacle (performDelete e id))
  | .ingest _ => none

/-- The commands that only look at the database. -/
def isReading : Command → Bool
  | .init => true
  | .showBatch _ => true
  | .showBatches => true
  | _ => false

variable {command : Command} {clock : Clock} {settings : Settings} {obstacle : Option Obstacle}
  {call : Call Record}

theorem exists_call? (hversion : command ≠ .version) (hingest : ∀ paths, command ≠ .ingest paths) :
    ∃ call, command.call? clock settings obstacle = some call := by
  cases command with
  | version => exact absurd rfl hversion
  | ingest paths => exact absurd rfl (hingest paths)
  | _ => exact ⟨_, rfl⟩

theorem runOn_of_call? {o : Opened} (h : command.call? clock settings o.obstacle = some call)
    (d : Directory) (output : Output) :
    command.runOn d clock output settings o = runCall output settings.format o call := by
  cases command <;> cases h <;> rfl

theorem observes_of_isReading (hreading : command.isReading = true)
    (h : command.call? clock settings obstacle = some call) : Session.Observes call := by
  cases command with
  | init =>
    cases h
    exact fun s => rfl
  | showBatch id =>
    cases h
    exact (Session.observes_query .batch _).map _
  | showBatches =>
    cases h
    exact (Session.observes_query .batch _).map _
  | _ => cases hreading

/-- **Every call of a command fails cleanly.** -/
theorem failsCleanly_of_call? (h : command.call? clock settings obstacle = some call) :
    Session.FailsCleanly call := by
  cases command with
  | version => cases h
  | ingest paths => cases h
  | create row =>
    cases h
    exact Session.failsCleanly_writing (row.failsCleanly_perform (clock 0)) obstacle
  | delete e id =>
    cases h
    exact Session.failsCleanly_writing (failsCleanly_performDelete e id) obstacle
  | _ => exact (observes_of_isReading rfl h).failsCleanly

end Command

/-! ## Whole runs -/

section Invocation

variable {i : Invocation} {d : Directory} {clock : Clock}

/-- A run opens the database and goes on with its command, or that fails and is all. -/
theorem Invocation.run_cases (hversion : i.command ≠ .version) (d : Directory) (clock : Clock) :
    (∃ o, openDatabase d (i.settings d) = .ok o ∧
      ∀ output, i.run d clock output = i.command.runOn d clock output (i.settings d) o) ∨
    ∃ f, openDatabase d (i.settings d) = .error f ∧
      ∀ output, i.run d clock output = { failure := some f.failure, saved := f.saved } := by
  unfold Invocation.run
  split
  · rename_i hcommand
    exact absurd hcommand hversion
  · cases hopen : openDatabase d (i.settings d) with
    | ok o => exact .inl ⟨o, rfl, fun output => by simp only [hopen]⟩
    | error f => exact .inr ⟨f, rfl, fun output => by simp only [hopen]⟩

theorem Invocation.run_of_version (hversion : i.command = .version) (output : Output) :
    i.run d clock output = runVersion output := by
  unfold Invocation.run
  rw [hversion]

/-- **The output has no say in what a run does**, only in what gets through of its record. -/
theorem Invocation.run_eq_receive (hcommand : ∀ paths, i.command ≠ .ingest paths)
    (output : Output) : i.run d clock output = (i.run d clock .ideal).receive (output 0) := by
  by_cases hversion : i.command = .version
  · rw [run_of_version hversion, run_of_version hversion, runVersion_eq_receive]
  rcases i.run_cases hversion d clock with ⟨o, -, hrun⟩ | ⟨f, -, hrun⟩
  · obtain ⟨call, hcall⟩ := Command.exists_call? hversion hcommand
    rw [hrun, hrun, Command.runOn_of_call? hcall, Command.runOn_of_call? hcall, runCall_eq_receive]
  · rw [hrun, hrun]
    rfl

/-- **A run prints one record and succeeds, or it prints nothing and touches no table**, as far as
it is up to the command. -/
theorem Invocation.run_ideal_cases (hcommand : ∀ paths, i.command ≠ .ingest paths) (d : Directory)
    (clock : Clock) :
    ((i.run d clock .ideal).failure = none ∧ ∃ line, (i.run d clock .ideal).printed = [line]) ∨
    ((i.run d clock .ideal).failure.isSome = true ∧ (i.run d clock .ideal).printed = [] ∧
      d.SameData ((i.run d clock .ideal).directory d)) := by
  by_cases hversion : i.command = .version
  · rw [run_of_version hversion]
    exact .inl ⟨rfl, versionLine, rfl⟩
  rcases i.run_cases hversion d clock with ⟨o, hopen, hrun⟩ | ⟨f, hopen, hrun⟩
  · obtain ⟨call, hcall⟩ := Command.exists_call? hversion hcommand
    rw [Outcome.directory, hrun, Command.runOn_of_call? hcall]
    rcases runCall_cases (Command.failsCleanly_of_call? hcall) (saved_of_openDatabase hopen) with
      ⟨record, s, -, hdone⟩ | ⟨f, hfailed⟩
    · rw [hdone]
      exact .inl ⟨rfl, _, rfl⟩
    · rw [hfailed]
      exact .inr ⟨rfl, rfl, sameData_of_openDatabase hopen⟩
  · rw [Outcome.directory, hrun]
    exact .inr ⟨rfl, rfl, sameData_of_openFailure hopen⟩

/-- A run that only looks at the database touches no table. -/
theorem Invocation.sameData_of_isReading (hreading : i.command.isReading = true)
    (output : Output) : d.SameData ((i.run d clock output).directory d) := by
  have hversion : i.command ≠ .version := fun hversion => by
    rw [hversion] at hreading
    cases hreading
  have hingest : ∀ paths, i.command ≠ .ingest paths := fun paths hpaths => by
    rw [hpaths] at hreading
    cases hreading
  rcases i.run_cases hversion d clock with ⟨o, hopen, hrun⟩ | ⟨f, hopen, hrun⟩
  · obtain ⟨call, hcall⟩ := Command.exists_call? hversion hingest
    have hobserves := Command.observes_of_isReading hreading hcall
    rw [Outcome.directory, hrun, Command.runOn_of_call? hcall, runCall_of_observes output hobserves]
    exact sameData_of_openDatabase hopen
  · rw [Outcome.directory, hrun]
    exact sameData_of_openFailure hopen

end Invocation

/-- **Every command but `ingest` is done or not done.**  If it fails, whatever the failure and
whatever is where, nothing is printed, and no table of any database is touched, but for an empty
schema in a database that was still to be created.  Commands that only look at the database touch
none also if they succeed.  `version` goes by nothing that is anywhere and leaves nothing.

So it is if the output takes what is printed.  An output that refuses it comes too late: the command
has failed before, or it was done as with any other output, and then the failure is that of the
output. -/
theorem run_atomic {i : Invocation} (hcommand : ∀ paths, i.command ≠ .ingest paths) (d : Directory)
    (clock : Clock) (output : Output) :
    (output 0 = .taken → (i.run d clock output).failure.isSome = true →
      (i.run d clock output).stdout = "" ∧ d.SameData ((i.run d clock output).directory d)) ∧
    (∀ length error, output 0 = .refused length error →
      ((i.run d clock output).failure = (i.run d clock .ideal).failure ∧
        (i.run d clock output).failure.isSome = true ∧ (i.run d clock output).stdout = "" ∧
        d.SameData ((i.run d clock output).directory d)) ∨
      ((i.run d clock .ideal).failure = none ∧
        (i.run d clock output).failure = some ⟨.output error, []⟩ ∧
        (i.run d clock output).stdout =
          String.ofList ((i.run d clock .ideal).stdout.toList.take length) ∧
        (i.run d clock output).saved = (i.run d clock .ideal).saved)) ∧
    (i.command.isReading = true → d.SameData ((i.run d clock output).directory d)) ∧
    (i.command = .version →
      (i.run d clock output).saved = none ∧ ∀ d', i.run d' clock output = i.run d clock output) := by
  refine ⟨?_, ?_, fun hreading => Invocation.sameData_of_isReading hreading output, ?_⟩
  · intro htaken hfailure
    have hsame : i.run d clock output = i.run d clock .ideal := by
      rw [Invocation.run_eq_receive hcommand, htaken]
      exact (Invocation.run_eq_receive hcommand .ideal).symm
    rw [hsame] at hfailure ⊢
    rcases i.run_ideal_cases hcommand d clock with ⟨hnone, -⟩ | ⟨-, hprinted, hdata⟩
    · rw [hnone] at hfailure
      cases hfailure
    · rw [Outcome.stdout, hprinted]
      exact ⟨rfl, hdata⟩
  · intro length error hrefused
    have hrun : i.run d clock output = (i.run d clock .ideal).receive (output 0) :=
      Invocation.run_eq_receive hcommand output
    rw [hrefused, Outcome.receive] at hrun
    rcases i.run_ideal_cases hcommand d clock with
      ⟨hnone, line, hprinted⟩ | ⟨hsome, hprinted, hdata⟩
    · refine .inr ⟨hnone, ?_⟩
      rw [hprinted] at hrun
      rw [hrun, Outcome.stdout, Outcome.stdout, hprinted]
      simp [Reception.print, String.join]
    · refine .inl ?_
      rw [hprinted] at hrun
      rw [hrun, Outcome.stdout, hprinted]
      exact ⟨rfl, hsome, rfl, hdata⟩
  · intro hversion
    simp only [Invocation.run_of_version hversion]
    exact ⟨rfl, fun _ => trivial⟩

/-- A directory with a database in which a user is known. -/
def stocked : Directory := fun place =>
  if place = {} then .directory
  else if place.names = ["fuzzermon.sqlite3"] then
    .file (.database (Session.fresh.after (.createUser "ada")).close)
  else .nothing

/-- Creates that user again. -/
def createAgain : Invocation := { command := .create (.user "ada") }

/-- Creates another one. -/
def createOther : Invocation := { command := .create (.user "bob") }

/-- The known user is not created again.  The other one is created though the output breaks off, and
stays. -/
theorem run_atomic_createAgain :
    ((createAgain.run stocked (fun _ => .epoch) .ideal).failure.isSome = true ∧
      (createAgain.run stocked (fun _ => .epoch) .ideal).stdout = "" ∧
      stocked.SameData ((createAgain.run stocked (fun _ => .epoch) .ideal).directory stocked)) ∧
    let broken := createOther.run stocked (fun _ => .epoch) fun _ => .refused 4 "no space left"
    broken.failure = some ⟨.output "no space left", []⟩ ∧ broken.stdout = "user" ∧
      broken.saved = (createOther.run stocked (fun _ => .epoch) .ideal).saved := by
  have hagain : ∀ paths, createAgain.command ≠ .ingest paths := by
    intro paths hpaths
    cases hpaths
  have hother : ∀ paths, createOther.command ≠ .ingest paths := by
    intro paths hpaths
    cases hpaths
  have hfailure : (createAgain.run stocked (fun _ => .epoch) .ideal).failure.isSome = true := by
    decide +kernel
  have hdone : (createOther.run stocked (fun _ => .epoch) .ideal).failure = none ∧
      (createOther.run stocked (fun _ => .epoch) .ideal).stdout = "user 2 bob\n" := by
    decide +kernel
  refine ⟨⟨hfailure, (run_atomic hagain stocked (fun _ => .epoch) .ideal).1 rfl hfailure⟩, ?_⟩
  rcases (run_atomic hother stocked (fun _ => .epoch) fun _ => .refused 4 "no space left").2.1 4
    "no space left" rfl with ⟨hsame, hsome, -⟩ | ⟨-, hbroken, hstdout, hsaved⟩
  · rw [hsame, hdone.1] at hsome
    cases hsome
  · refine ⟨hbroken, ?_, hsaved⟩
    rw [hstdout, hdone.2]
    decide +kernel

end FuzzLedger
