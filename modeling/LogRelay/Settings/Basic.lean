import LogRelay.Settings.Filter
import LogRelay.Notice
import LogRelay.Settings.Paths

/-!
# Settings

All settings of the program, as the environment holds them, and what follows from them: the console
format, the process log, and which logs are followed.
-/

namespace LogRelay

/-- The settings of the program. -/
structure Settings where
  consoleFormat : Text
  legacyLogFormat : Text
  debug : Text
  consoleSource : Text
  legacyWebServerLog : Option Text
  qmgrName : Text
  connauthUseHtp : Text
  embeddedWebServer : Text
  tail : TailSettings
  paths : PathSettings

/-- Whether a value is `true` or `1`, case and space apart. -/
def isTruthy (value : Text) : Bool :=
  let v := value.strip.lower
  v = "true" || v = "1"

/-- Whether a value is `true`, case and space apart. -/
def isTrue (value : Text) : Bool := value.strip.lower = "true"

/-- The console format with a name; `json` is another name of the machine format. -/
def Format.ofName? (name : Text) : Option Format :=
  if name = "basic" then some .basic
  else if name = "machine" ∨ name = "json" then some .machine
  else none

namespace Settings

/-! ### Loading -/

/-- A value that is compared without regard to case and surrounding space. -/
def normalised (value : Text) : Text := value.strip.lower

/-- The settings of a group, which one variable can hold as a whole: the problems of that variable
are told apart by the name of the group. -/
def grouped {α : Type} (name : Text) (load : List (Text × Json) → Except Failure α) :
    Option Json → Except Failure (Checked α)
  | none =>
    match load [] with
    | .ok s => .ok (.good s)
    | .error f => .error f
  | some (.object members) =>
    match load members with
    | .ok s => .ok (.good s)
    | .error (.invalid ps) => .ok ((Checked.bad ps).under name)
    | .error (.tooDeep m) => .error (.tooDeep m)
    | .error f => .ok ((Checked.refuse "value_error" ("Value error, " ++ f.message)).under name)
  | some _ =>
    .ok ((Checked.refuse "model_type" ("Input should be a valid dictionary or instance of " ++
      (if name = "tail" then "TailSettings" else "PathSettings" : Text))).under name)

/-- The settings an environment holds. -/
def load (env : Environment) : Except Failure Settings :=
  let value (name : Text) : Text := (env.find? name).getD []
  match PathSettings.structured? (env.find? "TAIL") "tail",
    PathSettings.structured? (env.find? "PATHS") "paths" with
  | .error f, _ | _, .error f => .error f
  | .ok tailValue, .ok pathsValue =>
    match grouped "tail" (TailSettings.load · env) tailValue with
    | .error f => .error f
    | .ok tail =>
      match grouped "paths" (PathSettings.load · env) pathsValue with
      | .error f => .error f
      | .ok paths =>
        let settings (tail : TailSettings) (paths : PathSettings) : Settings := {
          consoleFormat := normalised (value "MQ_LOGGING_CONSOLE_FORMAT")
          legacyLogFormat := normalised (value "LOG_FORMAT")
          debug := value "DEBUG"
          consoleSource := normalised (value "MQ_LOGGING_CONSOLE_SOURCE")
          legacyWebServerLog := env.find? "MQ_ENABLE_EMBEDDED_WEB_SERVER_LOG"
          qmgrName := value "MQ_QMGR_NAME"
          connauthUseHtp := value "MQ_CONNAUTH_USE_HTP"
          embeddedWebServer := value "MQ_ENABLE_EMBEDDED_WEB_SERVER"
          tail, paths }
        match ((Checked.good settings).and tail).and paths with
        | .good s => .ok s
        | .bad ps => .error (.invalid ps)

/-! ### What follows from the settings -/

/-- The console format: the older variable counts if the newer one is empty, and an unknown name is
the basic format. -/
def format (s : Settings) : Format :=
  (Format.ofName? (if s.consoleFormat.isEmpty then s.legacyLogFormat else s.consoleFormat)).getD
    .basic

/-- Whether notices of all levels are written. -/
def isDebug (s : Settings) : Bool := isTruthy s.debug

/-- Whether the log of the password file plugin is followed. -/
def usesHtpasswd (s : Settings) : Bool := isTrue s.connauthUseHtp

/-- Whether the log of the web server is followed. -/
def hasWebServer (s : Settings) : Bool := isTrue s.embeddedWebServer

/-- Whether a selector names only categories; empty entries do not matter. -/
def isSelectorValid (value : Text) : Bool :=
  (value.lower.split ',').all fun entry =>
    (Category.ofName? entry.strip).isSome || entry.strip.isEmpty

/-- The failure of settings that rule out a start. -/
def validate (s : Settings) : Except Failure Unit :=
  if isSelectorValid s.consoleSource then .ok ()
  else .error (.configuration
    ("Invalid value for MQ_LOGGING_CONSOLE_SOURCE: " ++ s.consoleSource)
    [("permitted", Notice.textArray (Text.sort (Category.all.map Category.name)))])

/-- The logs that are followed.  That of the system always is; the others need their category to be
selected and their part of the system to be in use. -/
def sources (s : Settings) (env : Environment) (qmgrName : Text) (fromStart : Bool)
    (qmgrErrorDir : Option Path) : List Source :=
  let selector := (FilterSettings.load env).selector
  let qmgr : List Source :=
    match qmgrErrorDir with
    | some dir =>
      if qmgrName.isEmpty then []
      else [⟨"qmgr", dir.join (Path.ofText s.paths.qmgrErrorLogName), fromStart, true, .qmgr⟩]
    | none => []
  let htpasswd : List Source :=
    if s.usesHtpasswd then [⟨"htpasswd", s.paths.htpasswdLog, false, false, .qmgr⟩] else []
  let web : List Source :=
    if s.hasWebServer then [⟨"web", s.paths.webServerLog, false, false, .web⟩] else []
  ⟨"system", s.paths.systemErrorLog, false, false, .qmgr⟩ ::
    ((if isSelected Category.qmgr.name selector then qmgr ++ htpasswd else []) ++
      if isSelected Category.web.name selector then web else [])

/-- The variable whose use is reported once at the start. -/
def replacedVariable : Text := "MQ_ENABLE_EMBEDDED_WEB_SERVER_LOG"

/-- The notice of a variable that has been replaced by another one. -/
def replacedNotices (env : Environment) : List Notice :=
  match env.get? replacedVariable with
  | some (_ :: _) => [.replacedVariable replacedVariable]
  | _ => []

end Settings

/-- How the process log is written. -/
structure LogSettings where
  format : Format
  debug : Bool
  processName : Text

/-- The process log in some format; the process must have a name. -/
def Settings.logIn (s : Settings) (f : Format) (processName : Text) : Except Failure LogSettings :=
  match (Validation.filled processName).under "process_name" with
  | .good name => .ok ⟨f, s.isDebug, name⟩
  | .bad ps => .error (.invalid ps)

/-- The process log settings; a format that is given must be known. -/
def Settings.logSettings (s : Settings) (processName : Text) (format : Option Text) :
    Except Failure LogSettings :=
  match format with
  | none => s.logIn s.format processName
  | some name =>
    match Format.ofName? (Settings.normalised name) with
    | some f => s.logIn f processName
    | none => .error (.configuration ("Invalid value for LOG_FORMAT: " ++ name) [])

end LogRelay
