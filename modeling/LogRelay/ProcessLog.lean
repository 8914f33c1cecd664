import LogRelay.Json.Printer
import LogRelay.Notice
import LogRelay.Settings.Basic

/-!
# The process log

Notices as they are written to the standard error: one JSON object per line in the machine format,
and aligned text with the particulars as `name=value` in the basic one.
-/

namespace LogRelay.ProcessLog

/-- The name a part of the relay has in the process log. -/
def componentName : Component → Text
  | .program => "src.mqlogmirror.main"
  | .follower => "src.mqlogmirror.core.tailer"
  | .pipeline => "src.mqlogmirror.core.pipeline"
  | .service => "src.mqlogmirror.core.mirror_service"
  | .termination => "src.mqlogmirror.core.termination"
  | .filter => "src.mqlogmirror.core.filters"
  | .layout => "src.mqlogmirror.core.formatter"
  | .managers => "src.mqlogmirror.core.qmgr"

/-- Whether a notice is written: notices for debugging only if they are asked for. -/
def isWritten (log : LogSettings) (n : Notice) : Bool := log.debug || n.level != .debug

/-- A notice as a JSON object. -/
def machineLine (log : LogSettings) (stamp : Text) (n : Notice) : Text :=
  let common : List (Text × Json) := [
    ("event", .text n.event), ("logger", .text (componentName n.component)),
    ("level", .text n.level.name), ("timestamp", .text stamp), ("process", .text log.processName)]
  (Json.object (n.arguments ++ common)).write Json.spaced

/-- The width of the level in a text line. -/
def levelWidth : Nat := 9

/-- The width of what happened in a text line. -/
def eventWidth : Nat := 30

/-- Whether a code point in a value makes it be shown in quotes. -/
def needsQuotes (c : CodePoint) : Bool :=
  ([' ', '\t', '=', '\r', '\n', '"', '\''] : List CodePoint).contains c

/-- A value in a text line. -/
def valueText : Json → Text
  | .text t => if t.any needsQuotes then t.quoted else t
  | v => v.inspect

/-- A text without the spaces at its end. -/
def trimEnd (t : Text) : Text := (t.reverse.dropWhile (· == (' ' : CodePoint))).reverse

/-- A notice as a text line, its particulars in the order of their names. -/
def basicLine (log : LogSettings) (stamp : Text) (n : Notice) : Text :=
  let particulars := n.arguments ++ ([("process", .text log.processName)] : List (Text × Json))
  let ordered := particulars.mergeSort fun a b => Text.le a.1 b.1
  let parts : List Text :=
    [stamp, "[" ++ n.level.name.padRight levelWidth ++ "]", n.event.padRight eventWidth,
      "[" ++ componentName n.component ++ "]"] ++
    ordered.map fun (name, value) => name ++ "=" ++ valueText value
  trimEnd (Text.joinWith " " parts)

/-- A notice as it is written, with its line end. -/
def line (log : LogSettings) (stamp : Text) (n : Notice) : Text :=
  (match log.format with
    | .machine => machineLine log stamp n
    | .basic => basicLine log stamp n) ++ "\n"

/-- What is written of some notices. -/
def text (log : LogSettings) (stamp : Text) (ns : List Notice) : Text :=
  (ns.filter (isWritten log)).flatMap (line log stamp)

end LogRelay.ProcessLog
