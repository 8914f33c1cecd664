import LogRelay.Settings.Tail
import LogRelay.Source

/-!
# Path settings

Where the followed logs, the queue manager list, the termination record and the diagnostic tools
are.
-/

namespace LogRelay

/-- The places the relay works with. -/
structure PathSettings where
  systemErrorLog : Path
  htpasswdLog : Path
  webServerLog : Path
  mqsIni : Path
  /-- The name of the error log in the directory of a queue manager. -/
  qmgrErrorLogName : Text
  terminationLog : Path
  /-- The directories that are listed for diagnostics. -/
  diagnosticDirs : List Text
  ffstsummary : Path
  errorsDir : Path
  /-- Seconds that a diagnostic command may take. -/
  diagnosticsTimeout : Double

namespace PathSettings

/-- The usual places. -/
def default : PathSettings where
  systemErrorLog := "/var/mqm/errors/AMQERR01.json"
  htpasswdLog := "/var/mqm/errors/mqhtpass.json"
  webServerLog := "/var/mqm/web/installations/Installation1/servers/mqweb/logs/messages.log"
  mqsIni := "/var/mqm/mqs.ini"
  qmgrErrorLogName := "AMQERR01.json"
  terminationLog := "/run/termination-log"
  diagnosticDirs := ["/mnt/", "/mnt/mqm", "/mnt/mqm/data", "/mnt/mqm-log/log",
    "/mnt/mqm-data/qmgrs", "/var/mqm", "/var/mqm/errors", "/etc/mqm"]
  ffstsummary := "/opt/mqm/bin/ffstsummary"
  errorsDir := "/var/mqm/errors"
  diagnosticsTimeout := .ofInt 30

/-- What the variables of path settings begin with. -/
def group : Text := "MQLOGMIRROR_PATHS_"

/-- The name of the setting that is a list. -/
def listName : Text := "diagnostic_dirs"

/-- The names of path settings. -/
def names : List Text :=
  ["system_error_log", "htpasswd_log", "web_server_log", "mqs_ini", "qmgr_error_log_name",
    "termination_log", listName, "ffstsummary", "errors_dir", "diagnostics_timeout_seconds"]

/-- The value of a variable that holds JSON; null counts as not set. -/
def structured? (value : Option Text) (field : Text) : Except Failure (Option Json) :=
  match value with
  | none => .ok none
  | some t =>
    match Json.parse t with
    | .ok .null => .ok none
    | .ok v => .ok (some v)
    | .error (.tooDeep isObject) => .error (.tooDeep ((Json.Fault.tooDeep isObject).message t))
    | .error _ => .error (.malformedVariable field)

/-- The path settings given by members and variables, with the list that its variable holds. -/
def check (members : List (Text × Json)) (env : Environment) (listed : Option Json) :
    Checked PathSettings :=
  let setting {α : Type} (name : Text) (default : α) (read : Json → Checked α) : Checked α :=
    (Checked.optional default read (Settings.given? members env group name)).under name
  let dirs := Checked.optional default.diagnosticDirs Validation.texts
    ((members.lookup listName).or listed)
  ((((((((((Checked.good (fun a b c d e f g h i j (_ : Unit) => ⟨a, b, c, d, e, f, g, h, i, j⟩)).and
    (setting "system_error_log" default.systemErrorLog Validation.path)).and
    (setting "htpasswd_log" default.htpasswdLog Validation.path)).and
    (setting "web_server_log" default.webServerLog Validation.path)).and
    (setting "mqs_ini" default.mqsIni Validation.path)).and
    (setting "qmgr_error_log_name" default.qmgrErrorLogName Validation.text)).and
    (setting "termination_log" default.terminationLog Validation.path)).and
    (dirs.under listName)).and
    (setting "ffstsummary" default.ffstsummary Validation.path)).and
    (setting "errors_dir" default.errorsDir Validation.path)).and
    (setting "diagnostics_timeout_seconds" default.diagnosticsTimeout Validation.positive)
    |>.and (Settings.unknownMembers names members)

/-- The path settings given by members and variables. -/
def load (members : List (Text × Json)) (env : Environment) : Except Failure PathSettings :=
  let members := Settings.canonical names members
  match structured? (Settings.found? members env group listName) listName with
  | .error f => .error f
  | .ok listed =>
    match check members env listed with
    | .good s => .ok s
    | .bad ps => .error (.invalid ps)

end PathSettings

end LogRelay
