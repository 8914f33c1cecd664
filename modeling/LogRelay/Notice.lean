import LogRelay.Failure
import LogRelay.Source

/-!
# Notices

What the relay reports about its own work.  A notice is what happened; its level, event text,
arguments and the component it comes from are functions of that.
-/

namespace LogRelay

/-- How serious a notice is. -/
inductive Level where
  | debug
  | info
  | warning
  | error
deriving DecidableEq

/-- The name of a level. -/
def Level.name : Level → Text
  | .debug => "debug"
  | .info => "info"
  | .warning => "warning"
  | .error => "error"

/-- Why a file is read from its start again. -/
inductive Reopening where
  | rotated
  | truncated
deriving DecidableEq

/-- The name of the cause of a reopening. -/
def Reopening.name : Reopening → Text
  | .rotated => "rotated"
  | .truncated => "truncated"

/-- A part of the relay that reports. -/
inductive Component where
  | program
  | follower
  | pipeline
  | service
  | termination
  | filter
  | layout
  | managers
deriving DecidableEq

/-- Something the relay reports. -/
inductive Notice where
  -- lines
  | hostUnknown (error : Text)
  | layoutFallback (source field : Text)
  | pipelineReady (format : Format) (counted : Bool)
  | undecodable (source error line : Text)
  -- followed files
  | followerStarting (source path : Text) (fromStart : Bool)
  | awaitingFile (source path : Text)
  | fileOpened (source path : Text) (offset : Nat)
  | accessFailed (source path error : Text) (attempt : Nat) (limit : Int)
  | fileReopened (source path : Text) (reason : Reopening)
  | closeFailed (path error : Text)
  | followerStopped (source path : Text)
  -- the service
  | serviceReady (sources : List Text) (pollSeconds : Double)
  | serviceStarted (followers : Nat)
  | serviceStopping
  | sourceFailed (source error kind : Text)
  | failedWhileStopping (source error : Text)
  | serviceStopped
  -- settings and queue managers
  | replacedVariable (name : Text)
  | managersUnreadable (path error : Text)
  -- termination
  | alreadyTerminated (message : Text)
  | recordingTermination (message : Text)
  | recordUnwritable (path error : Text)
  | terminated (message : Text)
  | diagnosticsBegin
  | diagnosticsOutput (title output : Text)
  | commandFailed (command : List Text) (error : Text)
  | diagnosticsEnd
  -- the program
  | programStarting (format : Format) (sources : List (Text × Text))
  | signalUnsupported (signal : Text)
  | totals (values : List (Text × Json))

namespace Notice

/-- How serious a notice is. -/
def level : Notice → Level
  | accessFailed .. | undecodable .. | replacedVariable _ => .warning
  | fileReopened .. | serviceReady .. | serviceStarted _ | serviceStopping | serviceStopped
  | programStarting .. | totals _ => .info
  | sourceFailed .. | terminated _ => .error
  | _ => .debug

/-- What happened, in words. -/
def event : Notice → Text
  | hostUnknown _ => "Unable to resolve hostname"
  | layoutFallback .. => "Unexpected field type in log message, using default layout"
  | pipelineReady .. => "Mirror pipeline initialized"
  | undecodable .. => "Failed to unmarshall JSON in log message"
  | followerStarting .. => "Starting tailer"
  | awaitingFile .. => "Waiting for log file to appear"
  | fileOpened .. => "Opened log file"
  | accessFailed .. => "Error accessing log file"
  | fileReopened _ _ .rotated => "Log file rotated"
  | fileReopened _ _ .truncated => "Log file truncated"
  | closeFailed .. => "Error closing log file"
  | followerStopped .. => "Tailer stopped"
  | serviceReady .. => "Mirror service initialized"
  | serviceStarted _ => "Mirror service started"
  | serviceStopping => "Stopping mirror service"
  | sourceFailed .. => "Tailer failed, stopping remaining tailers"
  | failedWhileStopping .. => "Tailer ended with error during shutdown"
  | serviceStopped => "Mirror service stopped"
  | replacedVariable name =>
    "Environment variable " ++ name ++
      " has now been replaced. Use MQ_LOGGING_CONSOLE_SOURCE instead."
  | managersUnreadable .. => "Unable to read mqs.ini"
  | alreadyTerminated _ => "Termination already recorded"
  | recordingTermination _ => "Writing termination message"
  | recordUnwritable .. => "Unable to write termination log"
  | terminated m => m
  | diagnosticsBegin => "--- Start Diagnostics ---"
  | diagnosticsOutput title output => title ++ ":\n" ++ output
  | commandFailed .. => "Diagnostic command failed"
  | diagnosticsEnd => "---  End Diagnostics  ---"
  | programStarting .. => "Starting log mirror"
  | signalUnsupported _ => "Signal handlers not supported"
  | totals _ => "Mirror totals"

/-- Several texts as a value. -/
def textArray (ts : List Text) : Json := .array (ts.map Json.text)

/-- The particulars of a notice. -/
def arguments : Notice → List (Text × Json)
  | hostUnknown error => [("error", .text error)]
  | layoutFallback source field => [("source", .text source), ("field", .text field)]
  | pipelineReady format counted =>
    [("output_format", .text format.name), ("has_metrics", .bool counted)]
  | undecodable source error line =>
    [("source", .text source), ("error", .text error), ("log_line", .text line)]
  | followerStarting source path fromStart =>
    [("source", .text source), ("path", .text path), ("from_start", .bool fromStart)]
  | awaitingFile source path | fileReopened source path _ | followerStopped source path =>
    [("source", .text source), ("path", .text path)]
  | fileOpened source path offset =>
    [("source", .text source), ("path", .text path), ("offset", .int offset)]
  | accessFailed source path error attempt limit =>
    [("source", .text source), ("path", .text path), ("error", .text error),
      ("attempt", .int attempt), ("max_failures", .int limit)]
  | closeFailed path error | managersUnreadable path error | recordUnwritable path error =>
    [("path", .text path), ("error", .text error)]
  | serviceReady sources pollSeconds =>
    [("sources", textArray sources), ("poll_interval_seconds", .float pollSeconds)]
  | serviceStarted followers => [("tailers", .int followers)]
  | sourceFailed source error kind =>
    [("source", .text source), ("error", .text error), ("error_type", .text kind)]
  | failedWhileStopping source error => [("source", .text source), ("error", .text error)]
  | alreadyTerminated m | recordingTermination m => [("message", .text m)]
  | commandFailed command error => [("command", textArray command), ("error", .text error)]
  | programStarting format sources =>
    [("output_format", .text format.name),
      ("sources", .object (Json.collapse (sources.map fun (name, path) => (name, Json.text path))))]
  | signalUnsupported signal => [("signal", .text signal)]
  | totals values => values
  | serviceStopping | serviceStopped | replacedVariable _ | terminated _ | diagnosticsBegin
  | diagnosticsOutput .. | diagnosticsEnd => []

/-- The part of the relay a notice comes from. -/
def component : Notice → Component
  | hostUnknown _ => .filter
  | layoutFallback .. => .layout
  | pipelineReady .. | undecodable .. => .pipeline
  | followerStarting .. | awaitingFile .. | fileOpened .. | accessFailed .. | fileReopened ..
  | closeFailed .. | followerStopped .. => .follower
  | serviceReady .. | serviceStarted _ | serviceStopping | sourceFailed ..
  | failedWhileStopping .. | serviceStopped | replacedVariable _ => .service
  | managersUnreadable .. => .managers
  | alreadyTerminated _ | recordingTermination _ | recordUnwritable .. | terminated _
  | diagnosticsBegin | diagnosticsOutput .. | commandFailed .. | diagnosticsEnd => .termination
  | programStarting .. | signalUnsupported _ | totals _ => .program

end Notice

end LogRelay
