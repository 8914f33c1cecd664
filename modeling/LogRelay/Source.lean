import LogRelay.Path
import LogRelay.Validation

/-!
# Followed logs

What is fixed about a log before its first line is read: where it is, whether old lines count, and
the category the console selects by.
-/

namespace LogRelay

/-- The categories the console can be restricted to. -/
inductive Category where
  | qmgr
  | web
deriving DecidableEq

/-- The name of a category in settings. -/
def Category.name : Category → Text
  | .qmgr => "qmgr"
  | .web => "web"

/-- All categories. -/
def Category.all : List Category := [.qmgr, .web]

/-- The category with a name. -/
def Category.ofName? (name : Text) : Option Category := Category.all.find? (·.name = name)

/-- How lines are written to the console. -/
inductive Format where
  | basic
  | machine
deriving DecidableEq

/-- The name of a format. -/
def Format.name : Format → Text
  | .basic => "basic"
  | .machine => "machine"

/-- A log that is followed. -/
structure Source where
  name : Text
  path : Path
  /-- Whether lines that are there at the start are delivered too. -/
  fromStart : Bool := false
  /-- Whether the lines come from a queue manager, so that the host filter applies. -/
  isQmgrLog : Bool := false
  category : Category := .qmgr
deriving DecidableEq

namespace Validation

/-- A path. -/
def path : Json → Checked Path
  | .text t => .good (Path.ofText t)
  | _ => .refuse "path_type" "Input is not a valid path for <class 'pathlib.Path'>"

/-- A category by its name. -/
def category (v : Json) : Checked Category :=
  let unknown : Checked Category := .refuse "enum" "Input should be 'qmgr' or 'web'"
  match v with
  | .text t => characters t fun t =>
    match Category.ofName? t with
    | some c => .good c
    | none => unknown
  | _ => unknown

end Validation

/-- The source that some members describe; further members are ignored. -/
def Source.ofMembers (members : List (Text × Json)) : Checked Source :=
  let get (name : Text) : Option Json := members.lookup name
  let named {α : Type} (name : Text) (check : Option Json → Checked α) : Checked α :=
    (check (get name)).under name
  (((((Checked.good Source.mk).and (named "name" (.required Validation.text))).and
    (named "path" (.required Validation.path))).and
    (named "from_start" (.optional false Validation.bool))).and
    (named "is_qmgr_log" (.optional false Validation.bool))).and
    (named "category" (.optional .qmgr Validation.category))

end LogRelay
