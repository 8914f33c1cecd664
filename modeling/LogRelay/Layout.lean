import LogRelay.Entry
import LogRelay.Insert
import LogRelay.Json.Printer
import LogRelay.Source
import LogRelay.Text.Blank
import LogRelay.Trace

/-!
# Console layouts

`Layout.basic` writes a record as one readable line: the inserts decide first, then the record type,
and a member of the wrong type leads back to the default layout.  `Layout.machine` echoes a record
and wraps any other line into one.
-/

namespace LogRelay.Layout

/-- The width of the name column of trace lines. -/
def nameWidth : Nat := 13

/-- What the second and later lines of a message without an identifier begin with. -/
def continuationIndent : Text := List.replicate 25 (' ' : CodePoint)

/-- The last part of a dotted name, cut to the width of the name column. -/
def shortName (dotted : Text) : Text :=
  ((dotted.split '.').getLast?.getD []).take nameWidth

/-- A name in its column. -/
def nameColumn (dotted : Text) : Text := (shortName dotted).padRight nameWidth

/-- The time of a record, with the first zero offset written as `Z`. -/
def timestamp (m : Message) : Text := (m.text "ibm_datetime").replaceFirst "+0000" "Z"

/-- Time and text of a record. -/
def default (m : Message) : Text := timestamp m ++ " " ++ m.text "message"

/-- Time, text and inserts of a record. -/
def withInserts (m : Message) (inserts : List Text) : Text :=
  m.text "ibm_datetime" ++ " " ++ m.text "message" ++ " [" ++ Text.joinWith ", " inserts ++ "]"

/-- Trims a text and lines its later lines up under the first. -/
def indented (t : Text) : Text := t.strip.replaceAll '\n' ('\n' :: continuationIndent)

/-- A server message: without an identifier it tends to be free-form and is indented. -/
def serverMessage (m : Message) : Except ShapeError Text :=
  match m.requireText "message" with
  | .error e => .error e
  | .ok t => .ok (timestamp m ++ " " ++ if m.has "ibm_messageId" then t else indented t)

/-- The text members of a trace record. -/
structure TraceFields where
  threadId : Text
  moduleName : Text
  className : Text
  methodName : Text
  text : Text

/-- Reads the text members of a trace record, in the order in which they are reported. -/
def TraceFields.ofMessage (m : Message) : Except ShapeError TraceFields :=
  match m.requireText "ibm_threadId" with
  | .error e => .error e
  | .ok threadId =>
    match m.requireText "module" with
    | .error e => .error e
    | .ok moduleName =>
      match m.requireText "ibm_className" with
      | .error e => .error e
      | .ok className =>
        match m.requireText "ibm_methodName" with
        | .error e => .error e
        | .ok methodName =>
          match m.requireText "message" with
          | .error e => .error e
          | .ok text => .ok ⟨threadId, moduleName, className, methodName, text⟩

/-- The part of a trace line behind the thread: name column, code and the fields of the level. -/
def TraceFields.line (f : TraceFields) (levelName : Text) : Text :=
  let code := traceCode levelName
  match TraceLevel.ofName? levelName with
  | some .event => nameColumn f.moduleName ++ " " ++ code ++ " " ++ f.text
  | some .entry | some .exit =>
    nameColumn f.moduleName ++ " " ++ code ++ " " ++ f.methodName ++ " " ++ f.text
  | some .fine | some .finer | some .finest =>
    nameColumn f.className ++ " " ++ code ++ " " ++ f.className ++ " " ++
      f.methodName ++ " " ++ f.text
  | some .audit | some .info | none =>
    nameColumn f.moduleName ++ " " ++ code ++ " " ++ f.className ++ " " ++
      f.methodName ++ " " ++ f.text

/-- A trace record; without the name of a level it gets the default layout. -/
def trace (m : Message) : Except ShapeError Text :=
  match m.requireText "loglevel" with
  | .error e => .error e
  | .ok levelName =>
    if levelName.isEmpty then .ok (default m)
    else
      match TraceFields.ofMessage m with
      | .error e => .error e
      | .ok f => .ok (timestamp m ++ " " ++ f.threadId ++ " " ++ f.line levelName)

/-- The layout that a record asks for, or the member that stands in its way. -/
def preferred (m : Message) : Except ShapeError Text :=
  match Insert.collect m with
  | .error e => .error e
  | .ok (i :: is) => .ok (withInserts m (i :: is))
  | .ok [] =>
    if m.text "type" = "liberty_message" then serverMessage m
    else if m.text "type" = "liberty_trace" ∧ m.has "loglevel" then trace m
    else .ok (default m)

/-- A line as it is written, with the member that ruled out the preferred layout. -/
structure Rendering where
  text : Text
  fallback : Option ShapeError := none

/-- A line in the basic layout. -/
def basic (line : Text) (entry : Entry) : Rendering :=
  match entry.message? with
  | none => ⟨line, none⟩
  | some m =>
    match preferred m with
    | .ok t => ⟨t, none⟩
    | .error e => ⟨default m, some e⟩

/-- A line in the machine layout: a record as it is, any other line as the text of a new one. -/
def machine (line : Text) (entry : Entry) : Text :=
  match entry.message? with
  | some _ => line
  | none => (Json.object [("message", .text line)]).write Json.compact

/-- A line in a format. -/
def render (format : Format) (line : Text) (entry : Entry) : Rendering :=
  match format with
  | .basic => basic line entry
  | .machine => ⟨machine line entry, none⟩

end LogRelay.Layout
