import FuzzLedger.Command.Verdict

/-!
# Runs in a directory

A `Workspace` is a working directory with files in it and around it.  The program can be run in it
any number of times (`Workspace.run`): a run sees the files that are there, and leaves the database
file that it touched.  What it prints is all taken.
-/

set_option autoImplicit false

namespace FuzzLedger

/-- The files that there are, by their places. -/
structure Workspace where
  files : List (Place × FileContent) := []

namespace Workspace

/-- The working directory with the given files. -/
def ofFiles (files : List (String × FileContent)) : Workspace :=
  ⟨files.map fun (path, content) => (Place.ofPath path, content)⟩

/-- Directories that are at the root of any system. -/
def commonDirectories : List Place :=
  ["bin", "dev", "etc", "home", "lib", "proc", "sys", "tmp", "usr", "var"].map fun name =>
    ⟨true, [name]⟩

/-- Whether a directory is in a place.  The working directory and those around it are there, the
common ones at the root, and those that a file is in. -/
def hasDirectory (w : Workspace) (p : Place) : Bool :=
  p.names.all (· == "..") || commonDirectories.contains p ||
    w.files.any fun file => file.1.absolute == p.absolute && p.names.isPrefixOf file.1.names

/-- What is where. -/
def directory (w : Workspace) : Directory := fun p =>
  match w.files.lookup p with
  | some content => .file content
  | none => if w.hasDirectory p then .directory else .nothing

/-- Puts a file in a place. -/
def put (w : Workspace) (place : Place) (content : FileContent) : Workspace :=
  ⟨(place, content) :: w.files.filter fun file => file.1 != place⟩

/-- Runs the program with the given arguments. -/
def run (clock : Clock) (args : List String) (w : Workspace) : Verdict × Workspace :=
  match Invocation.parse args with
  | .error reason => (.usage reason, w)
  | .ok i =>
    let outcome := i.run w.directory clock .ideal
    match outcome.saved with
    | some (place, content) => (.ran outcome, w.put place content)
    | none => (.ran outcome, w)

/-- Runs the program with one list of arguments after the other. -/
def runAll (clock : Clock) : List (List String) → Workspace → List Verdict × Workspace
  | [], w => ([], w)
  | args :: more, w =>
    let (verdict, w) := run clock args w
    let (verdicts, w) := runAll clock more w
    (verdict :: verdicts, w)

end Workspace

end FuzzLedger
