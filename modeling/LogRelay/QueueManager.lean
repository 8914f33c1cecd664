import LogRelay.Disk.Contents
import LogRelay.Notice

/-!
# Queue managers

The list of queue managers is a file of stanzas: a header that ends in a colon, and under it
attributes of the form `Key=Value`.  `QueueManager.parse` reads the stanzas under the header
`QueueManager:`, and `QueueManager.find` looks one up by its name.
-/

namespace LogRelay

/-- A line of the list. -/
inductive ListLine where
  /-- An empty line, a comment, or a line of no known form. -/
  | other
  /-- The start of a stanza. -/
  | header (name : Text)
  | attribute (key value : Text)
deriving DecidableEq

/-- What a line of the list is; space around it does not matter. -/
def ListLine.ofText (line : Text) : ListLine :=
  let line := line.strip
  let isComment : Bool := line.head? == some ('#' : CodePoint) ||
    line.head? == some (';' : CodePoint)
  if isComment then .other
  else
    match cutFirst ('=' : CodePoint) line with
    | some (key, value) => .attribute (Text.strip key) (Text.strip value)
    | none => if line.getLast? = some (':' : CodePoint) then .header line else .other

/-- The attributes of a stanza. -/
abbrev Stanza := List (Text × Text)

namespace Stanza

/-- The header of the stanzas that are read. -/
def managerHeader : Text := "QueueManager:"

/-- A stanza that has come to its end; one without attributes does not count. -/
def closed : Option Stanza → List Stanza
  | some (a :: attributes) => [a :: attributes]
  | _ => []

/-- The stanzas of queue managers in some lines; `current` is the one the lines begin in. -/
def ofLines (current : Option Stanza) : List ListLine → List Stanza
  | [] => closed current
  | .header name :: rest =>
    closed current ++ ofLines (if name = managerHeader then some [] else none) rest
  | .attribute key value :: rest => ofLines (current.map (Json.putMember key value)) rest
  | .other :: rest => ofLines current rest

end Stanza

/-- A queue manager as the list describes it. -/
structure QueueManager where
  name : Text
  /-- The directory that holds the data of all queue managers. -/
  base : Text
  directory : Text
  /-- Where its data is, if not in the usual place. -/
  dataPath : Text
deriving DecidableEq

namespace QueueManager

/-- The queue manager a stanza describes. -/
def ofStanza (s : Stanza) : QueueManager :=
  let get (key : Text) : Text := (List.lookup key s).getD []
  ⟨get "Name", get "Prefix", get "Directory", get "DataPath"⟩

/-- The queue managers of a list. -/
def parse (t : Text) : List QueueManager :=
  (Stanza.ofLines none (t.lines.map ListLine.ofText)).map ofStanza

/-- Where the data of a queue manager is. -/
def dataDirectory (q : QueueManager) : Path :=
  if q.dataPath.isEmpty then ((Path.ofText q.base).join "qmgrs").join (Path.ofText q.directory)
  else Path.ofText q.dataPath

/-- Where the error logs of a queue manager are. -/
def errorDirectory (q : QueueManager) : Path := q.dataDirectory.join "errors"

/-- Looks a queue manager up in the list at a path.  A list that cannot be read holds none. -/
def find (d : Disk) (name : Text) (ini : Path) : List Notice × Except Failure QueueManager :=
  let missing : Except Failure QueueManager := .error (.managerNotFound name ini.text)
  match d.readText ini.text with
  | .error (.io e) => ([.managersUnreadable ini.text e.message], missing)
  | .error f => ([], .error f)
  | .ok t =>
    match (parse t).find? (·.name == name) with
    | some q => ([], .ok q)
    | none => ([], missing)

/-- The error directory of the queue manager with a name; without a name there is none. -/
def errorDirectoryOf (d : Disk) (name : Text) (ini : Path) :
    List Notice × Except Failure (Option Path) :=
  if name.isEmpty then ([], .ok none)
  else
    match find d name ini with
    | (ns, .ok q) => (ns, .ok (some q.errorDirectory))
    | (ns, .error f) => (ns, .error f)

end QueueManager

end LogRelay
