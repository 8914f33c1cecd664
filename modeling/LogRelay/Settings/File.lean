import LogRelay.Disk.Contents
import LogRelay.Disk.Feed
import LogRelay.Settings.Basic
import LogRelay.Yaml.Basic

/-!
# The settings file

A file in YAML may give values to variables that are not set.  `SettingsFile.find?` says which file
is read, `SettingsFile.read` what it holds, and `SettingsFile.fill` gives its values to the
environment; a variable that is set keeps its value.
-/

namespace LogRelay

namespace SettingsFile

/-- The variable that names the settings file. -/
def pathVariable : Text := "MQLOGMIRROR_CONFIG"

/-- Where a settings file is looked for: where the variable says, then here, then in the system. -/
def candidates (env : Environment) : List Text :=
  (env.get? pathVariable).toList ++
    (["mqlogmirror.yaml", "/etc/mqlogmirror/config.yaml"] : List Text)

/-- The settings file that is read if none is named. -/
def find? (d : Disk) (env : Environment) : Option Text := (candidates env).find? d.isThere

/-- What the file at a path holds; a file that is not there, or that holds nothing, is an empty
map. -/
def read (d : Disk) (path : Text) : Except Failure Yaml.Document := do
  if d.isThere path then
    let data ← Yaml.parse (Feed.ofOctets (← d.read path))
    return if data.isVoid data.root then .empty else data
  else return .empty

/-- What the settings file of an environment holds. -/
def load (d : Disk) (env : Environment) : Except Failure Yaml.Document :=
  match find? d env with
  | some path => read d path
  | none => .ok .empty

/-! ### Giving values to variables -/

/-- A value of the file and the variable it is for. -/
structure Mapping where
  group : Text
  key : Text
  variableName : Text

/-- The values that the file may hold, in the order in which they are looked at. -/
def mappings : List Mapping := [
  ⟨"logging", "format", "MQ_LOGGING_CONSOLE_FORMAT"⟩,
  ⟨"logging", "debug", "DEBUG"⟩,
  ⟨"logging", "source", "MQ_LOGGING_CONSOLE_SOURCE"⟩,
  ⟨"logging", "exclude_ids", "MQ_LOGGING_CONSOLE_EXCLUDE_ID"⟩,
  ⟨"logging", "multi_instance", "MQ_MULTI_INSTANCE"⟩,
  ⟨"qmgr", "name", "MQ_QMGR_NAME"⟩,
  ⟨"qmgr", "htpasswd", "MQ_CONNAUTH_USE_HTP"⟩,
  ⟨"web", "enabled", "MQ_ENABLE_EMBEDDED_WEB_SERVER"⟩,
  ⟨"tail", "poll_interval_seconds", "MQLOGMIRROR_TAIL_POLL_INTERVAL_SECONDS"⟩,
  ⟨"tail", "max_consecutive_failures", "MQLOGMIRROR_TAIL_MAX_CONSECUTIVE_FAILURES"⟩,
  ⟨"paths", "termination_log", "MQLOGMIRROR_PATHS_TERMINATION_LOG"⟩,
  ⟨"paths", "mqs_ini", "MQLOGMIRROR_PATHS_MQS_INI"⟩]

/-- The value of nothing. -/
def nothing : Yaml.Datum := .atom .null

/-- A member of a datum; nothing else than a map has members. -/
def member (data : Yaml.Document) (name : Text) (d : Yaml.Datum) : Except Failure Yaml.Datum :=
  match d with
  | .cell n =>
    match data.collection n with
    | .map members => .ok ((Yaml.Cell.member? name members).getD nothing)
    | c => .error (.notMapping c.typeName)
  | .atom a => .error (.notMapping a.typeName)

/-- The value of the file for a variable; an empty group holds nothing. -/
def Mapping.value (m : Mapping) (data : Yaml.Document) : Except Failure Yaml.Datum := do
  let group ← member data m.group data.root
  if data.isVoid group then return nothing else member data m.key group

/-- The text a variable is given for a value: the items of a list are joined by commas. -/
def variableText (data : Yaml.Document) (d : Yaml.Datum) : Except Failure Text :=
  match d with
  | .atom (.bool b) => .ok (if b then "true" else "false")
  | .atom a => a.display
  | .cell n =>
    match data.collection n with
    | .list items => Text.joinWith "," <$> items.mapM data.display
    | _ => data.display d

/-- Sets a variable, which cannot hold a NUL. -/
def store (env : Environment) (name value : Text) : Except Failure Environment :=
  match Text.firstUnstorable value with
  | some e => .error (.unencodable e)
  | none =>
    if value.contains ('\x00' : CodePoint) then .error .embeddedNul else .ok (env.set name value)

/-- Gives its value to one variable, unless that is set or there is none. -/
def fillOne (data : Yaml.Document) (env : Environment) (m : Mapping) : Except Failure Environment :=
  if (env.get? m.variableName).isSome then .ok env
  else
    match m.value data with
    | .error f => .error f
    | .ok (.atom .null) => .ok env
    | .ok d =>
      match variableText data d with
      | .error f => .error f
      | .ok t => store env m.variableName t

/-- Gives values to some variables in turn; after a failure the variables before it are set. -/
def fillFrom (data : Yaml.Document)
    (env : Environment) : List Mapping → Environment × Option Failure
  | [] => (env, none)
  | m :: rest =>
    match fillOne data env m with
    | .error f => (env, some f)
    | .ok env => fillFrom data env rest

/-- Gives the values of a file to an environment. -/
def fill (data : Yaml.Document) (env : Environment) : Environment × Option Failure :=
  if data.isVoid data.root then (env, none) else fillFrom data env mappings

end SettingsFile

/-- The settings at the start: the environment with the values of the settings file in it, and the
settings that it holds then. -/
def Settings.boot (d : Disk) (env : Environment) : Environment × Except Failure Settings :=
  match SettingsFile.load d env with
  | .error f => (env, .error f)
  | .ok data =>
    match SettingsFile.fill data env with
    | (env, some f) => (env, .error f)
    | (env, none) => (env, Settings.load env)

end LogRelay
