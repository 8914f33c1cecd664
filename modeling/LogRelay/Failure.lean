import LogRelay.Errno
import LogRelay.Message
import LogRelay.Text.Utf8
import LogRelay.Validation

/-!
# Failures

Everything that can go wrong while the relay runs, by cause.  `message` is the wording that reaches
the process log and the termination record, and `kind` the name under which a failure is reported.
-/

namespace LogRelay

/-- A cause of failure. -/
inductive Failure where
  /-- The operating system refused a call. -/
  | io (e : IoError)
  /-- A file cannot be followed any more. -/
  | tail (path reason : Text)
  /-- One of the followed logs failed. -/
  | source (name : Text) (cause : Failure)
  /-- The settings rule out a start. -/
  | configuration (message : Text) (details : List (Text × Json))
  /-- A queue manager is not listed. -/
  | managerNotFound (name iniPath : Text)
  /-- A member of a record has the wrong type. -/
  | shape (e : ShapeError)
  /-- A failure with a wording and a code of its own. -/
  | general (message code : Text) (details : List (Text × Json))
  /-- A text holds surrogates and cannot be written. -/
  | unencodable (e : Utf8.EncodeError)
  /-- A file is not well-formed text. -/
  | undecodable (e : Utf8.DecodeError)
  /-- A value that an operation does not take. -/
  | badValue (message : Text)
  /-- A section of the settings file is not a mapping. -/
  | notMapping (typeName : Text)
  /-- The relay is running already. -/
  | alreadyRunning
  /-- The task was cancelled. -/
  | cancelled
  /-- A diagnostic command did not end in time. -/
  | timeout (command : List Text) (seconds : Number)
  /-- A number in a settings file has no digits. -/
  | emptyNumber
  /-- A number in a settings file is too large for where it is used. -/
  | overflow (message : Text)
  /-- A text in a settings file is tagged as a timestamp and has not the form of one. -/
  | notTimestamp
  /-- A mapping in a settings file is tagged as a timestamp. -/
  | timestampOfMapping
  /-- A value is nested too deep. -/
  | tooDeep (message : Text)
  /-- A truth value in a settings file is none of the words for one. -/
  | unknownWord (word : Text)
  /-- A settings file is not well-formed. -/
  | malformedSettings
  /-- A variable that must hold JSON does not. -/
  | malformedVariable (field : Text)
  /-- Settings that are not accepted. -/
  | invalid (problems : List Problem)
  /-- The process ends with a status. -/
  | exit (status : Nat)

namespace Failure

/-- A path with a NUL names nothing. -/
def embeddedNul : Failure := .badValue "embedded null byte"

/-- A list of texts as it is shown. -/
def shownList (ts : List Text) : Text :=
  "[" ++ Text.joinWith ", " (ts.map Text.quoted) ++ "]"

/-- The wording of a failure. -/
def message : Failure → Text
  | io e => e.message
  | tail path reason => "Unable to mirror " ++ path ++ ": " ++ reason
  | source name cause => "Error mirroring " ++ name ++ " log: " ++ cause.message
  | configuration m _ => m
  | managerNotFound name iniPath => "Queue manager " ++ name ++ " not found in " ++ iniPath
  | shape e => "Field " ++ e.key ++ " is not a " ++ e.expected
  | general m _ _ => m
  | unencodable e => e.message
  | undecodable e => e.message
  | badValue m => m
  | notMapping typeName => "'" ++ typeName ++ "' object has no attribute 'get'"
  | alreadyRunning => "Mirror service is already running"
  | cancelled => []
  | timeout command seconds =>
    "Command '" ++ shownList command ++ "' timed out after " ++ seconds.text ++ " seconds"
  | emptyNumber => "string index out of range"
  | overflow m => m
  | notTimestamp => "'NoneType' object has no attribute 'groupdict'"
  | timestampOfMapping => "expected string or bytes-like object, got 'list'"
  | tooDeep m => m
  | unknownWord word => word.quoted
  | malformedSettings => []
  | malformedVariable field =>
    "error parsing value for field \"" ++ field ++ "\" from source \"EnvSettingsSource\""
  | invalid _ => []
  | exit status => Text.ofNat status

/-- The name of the kind of a failure. -/
def kind : Failure → Text
  | io e => e.errno.className
  | tail .. => "TailError"
  | source .. => "MirrorError"
  | configuration .. => "ConfigurationError"
  | managerNotFound .. => "QueueManagerNotFoundError"
  | shape _ => "MessageShapeError"
  | general .. => "MirrorException"
  | unencodable _ => "UnicodeEncodeError"
  | undecodable _ => "UnicodeDecodeError"
  | badValue _ => "ValueError"
  | notMapping _ => "AttributeError"
  | alreadyRunning => "RuntimeError"
  | cancelled => "CancelledError"
  | timeout .. => "TimeoutExpired"
  | emptyNumber => "IndexError"
  | overflow _ => "OverflowError"
  | notTimestamp => "AttributeError"
  | timestampOfMapping => "TypeError"
  | tooDeep _ => "RecursionError"
  | unknownWord _ => "KeyError"
  | malformedSettings => "YAMLError"
  | malformedVariable _ => "SettingsError"
  | invalid _ => "ValidationError"
  | exit _ => "SystemExit"

/-- The code of a failure of the relay itself. -/
def code? : Failure → Option Text
  | tail .. => some "tail_error"
  | source .. => some "mirror_error"
  | configuration .. => some "configuration_error"
  | managerNotFound .. => some "qmgr_not_found"
  | shape _ => some "message_shape_error"
  | general _ code _ => some code
  | _ => none

/-- The details of a failure of the relay itself. -/
def details : Failure → List (Text × Json)
  | tail path _ => [("path", .text path)]
  | source name cause => [("source", .text name), ("error_type", .text cause.kind)]
  | configuration _ ds => ds
  | managerNotFound name iniPath => [("qmgr", .text name), ("ini_path", .text iniPath)]
  | shape e => [("key", .text e.key), ("expected", .text e.expected)]
  | general _ _ ds => ds
  | _ => []

end Failure

end LogRelay
