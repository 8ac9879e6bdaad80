import FuzzLedger.Session.Basic

/-!
# Files and the paths to them

A `Place` is where something may be in the file system, and a `Directory` says what is there.  A
path is a text of steps divided by slashes; there are two ways to take it to a place.

* `Directory.find` goes step by step through what is there: a step can only be taken from a
  directory, also a step up or one that stays.
* `Directory.settle` takes steps up by name alone, from whatever is there or is not.  It is the way
  to the file of a database.

Names are texts: a name whose octets make no text is outside of the model.
-/

set_option autoImplicit false

namespace FuzzLedger

/-! ## Places -/

/-- A place: the names that lead to it from the root or from the working directory.  Only a place
outside the working directory has steps up (`..`), and it has them first. -/
structure Place where
  absolute : Bool := false
  names : List String := []
  deriving DecidableEq, Repr

namespace Place

/-- Where a path begins. -/
def start (path : String) : Place := { absolute := path.toList.head? == some '/' }

/-- The place with a name inside another. -/
def child (p : Place) (name : String) : Place := { p with names := p.names ++ [name] }

/-- The place around another; the root is around itself. -/
def parent (p : Place) : Place :=
  if p.names.all (· == "..") then if p.absolute then p else p.child ".."
  else { p with names := p.names.dropLast }

/-- The place beside another that has the same name but for what is added at its end. -/
def beside (p : Place) (suffix : String) : Place :=
  { p with names := p.names.dropLast ++ [p.names.getLastD "" ++ suffix] }

/-- The path of a place. -/
def path (p : Place) : String :=
  let names := "/".intercalate p.names
  if p.absolute then "/" ++ names else if p.names.isEmpty then "." else names

/-- The steps of a path. -/
def steps (path : String) : List String := (path.toList.splitOn '/').map String.ofList

/-- The place after one step. -/
def next (p : Place) (step : String) : Place :=
  if step.isEmpty || step == "." then p else if step == ".." then p.parent else p.child step

/-- The place of a path if all its steps are taken by name. -/
def ofPath (path : String) : Place := (steps path).foldl next (start path)

/-- All places on the way of a path, and the one around its end. -/
def along (path : String) : List Place :=
  (ofPath path).parent ::
    ((steps path).foldl (fun places step => (places.headD {}).next step :: places) [start path])

end Place

/-! ## What is there -/

/-- What is in a place. -/
inductive Occupant where
  | nothing
  | directory
  | file (content : FileContent)
  deriving DecidableEq

/-- What is where. -/
abbrev Directory := Place → Occupant

namespace Directory

/-- The most octets that a name may have. -/
def longestName : Nat := 255

/-- The most octets that a path may have. -/
def longestPath : Nat := 4095

def isTooLong (name : String) : Bool := longestName < name.utf8ByteSize

/-- With a file put in a place. -/
def put (d : Directory) (place : Place) (content : FileContent) : Directory := fun p =>
  if p = place then .file content else d p

/-- Goes step by step through what is there. -/
def walk (d : Directory) : Place → List String → Except Fault Place
  | here, [] => .ok here
  | here, step :: steps =>
    match d here with
    | .nothing => .error .missingFile
    | .file _ => .error .notDirectory
    | .directory => if isTooLong step then .error .nameTooLong else walk d (here.next step) steps

/-- The place that a path leads to through what is there. -/
def find (d : Directory) (path : String) : Except Fault Place :=
  if path.toList.contains '\x00' then .error .nulInPath
  else if path.isEmpty then .error .missingFile
  else if longestPath < path.utf8ByteSize then .error .nameTooLong
  else d.walk (Place.start path) (Place.steps path)

/-- The text of the file under a path.  A database is no text. -/
def readText (d : Directory) (path : String) : Except Fault String := do
  match d (← d.find path) with
  | .nothing => .error .missingFile
  | .directory => .error .isDirectory
  | .file (.text s) => .ok s
  | .file (.database ..) => .error .notText
  | .file .bytes => .error .notText

/-- Goes step by step by name.  A name may not be looked for in a file, nor a name too long in a
directory; where nothing is, any may. -/
def settleFrom (d : Directory) : Place → List String → Option Place
  | here, [] => some here
  | here, step :: steps =>
    let there := here.next step
    let looksInside := !step.isEmpty && step != "." && step != ".."
    match d here with
    | .nothing => settleFrom d there steps
    | .file _ => if looksInside then none else settleFrom d there steps
    | .directory => if isTooLong step then none else settleFrom d there steps

/-- The place that a path leads to by name, if it can be looked at. -/
def settle (d : Directory) (path : String) : Option Place :=
  d.settleFrom (Place.start path) (Place.steps path)

end Directory

end FuzzLedger
