import LogRelay.Environment
import LogRelay.Failure

/-!
# Following settings

How often followed files are looked at, and how many failures in a row are too many.  A setting is
taken from the members given, else from its variable, else it has its default; `Settings/Paths`
reads its settings in the same way.
-/

namespace LogRelay

namespace Settings

/-- The member that says what the variables of a group begin with. -/
def groupMember : Text := "_env_prefix"

/-- Members that name no setting but say how settings are looked for. -/
def lookupMembers : List Text := [
  groupMember, "_case_sensitive", "_nested_model_default_partial_update", "_env_file",
  "_env_file_encoding", "_env_ignore_empty", "_env_nested_delimiter", "_env_nested_max_split",
  "_env_parse_none_str", "_env_parse_enums", "_cli_prog_name", "_cli_parse_args",
  "_cli_settings_source", "_cli_parse_none_str", "_cli_hide_none_type", "_cli_avoid_json",
  "_cli_enforce_required", "_cli_use_class_docs_for_groups", "_cli_exit_on_error", "_cli_prefix",
  "_cli_flag_prefix_char", "_cli_implicit_flags", "_cli_ignore_unknown_args", "_cli_kebab_case",
  "_cli_shortcuts", "_secrets_dir"]

/-- Members under the names of the settings that they mean, whatever their case; of several members
for one setting the last counts, in the place of the first. -/
def canonical (names : List Text) (members : List (Text × Json)) : List (Text × Json) :=
  members.foldl (fun read m =>
    let name := (names.find? fun n => n == m.1.lower).getD m.1
    Json.putMember name m.2 read) []

/-- What the variables of a group begin with. -/
def groupOf (members : List (Text × Json)) (group : Text) : Text :=
  match members.lookup groupMember with
  | some (.text t) => t
  | _ => group

/-- Whether a member asks for something: it is there, and neither nothing nor empty. -/
def asksFor (members : List (Text × Json)) (name : Text) : Bool :=
  match members.lookup name with
  | none | some .null => false
  | some (.bool b) => b
  | some (.int n) => n != 0
  | some (.float d) => !d.isZero
  | some (.text t) => !t.isEmpty
  | some (.array items) => !items.isEmpty
  | some (.object ms) => !ms.isEmpty

/-- Whether a value counts, by the members that say how settings are looked for: empty ones may not
count, nor those that stand for nothing. -/
def counts (members : List (Text × Json)) (value : Text) : Bool :=
  !(value.isEmpty && asksFor members "_env_ignore_empty") &&
    match members.lookup ("_env_parse_none_str" : Text) with
    | some (.text t) => value != t
    | _ => true

/-- The value of the variable of a group for a setting; members may ask for its exact name. -/
def found? (members : List (Text × Json)) (env : Environment) (group name : Text) : Option Text :=
  let env : Environment := ⟨env.entries.filter fun v => counts members v.2⟩
  let name := groupOf members group ++ name
  if asksFor members "_case_sensitive" then env.get? name else env.find? name

/-- The value a setting is given: by a member, or by the variable of its group. -/
def given? (members : List (Text × Json)) (env : Environment) (group name : Text) : Option Json :=
  (members.lookup name).or ((found? members env group name).map Json.text)

/-- The problems of members that name no setting. -/
def unknownMembers (names : List Text) (members : List (Text × Json)) : Checked Unit :=
  match members.filter fun m => !(names.contains m.1 || lookupMembers.contains m.1) with
  | [] => .good ()
  | unknown => .bad (unknown.map fun m =>
      ⟨[m.1], "extra_forbidden", "Extra inputs are not permitted"⟩)

end Settings

/-- The settings of all followers. -/
structure TailSettings where
  /-- Seconds between two polls. -/
  pollSeconds : Double
  /-- The failure in a row that ends following. -/
  maxFailures : Nat

namespace TailSettings

/-- Half a second between two polls and ten failures in a row. -/
def default : TailSettings := ⟨.ofRatio false 1 2, 10⟩

/-- What the variables of following settings begin with. -/
def group : Text := "MQLOGMIRROR_TAIL_"

/-- The names of following settings. -/
def names : List Text := ["poll_interval_seconds", "max_consecutive_failures"]

/-- The following settings given by members and variables. -/
def check (members : List (Text × Json)) (env : Environment) : Checked TailSettings :=
  let setting {α : Type} (name : Text) (default : α) (read : Json → Checked α) : Checked α :=
    (Checked.optional default read (Settings.given? members env group name)).under name
  (((Checked.good (fun poll limit (_ : Unit) => ⟨poll, limit⟩)).and
    (setting "poll_interval_seconds" default.pollSeconds Validation.positive)).and
    (setting "max_consecutive_failures" default.maxFailures Validation.count)).and
    (Settings.unknownMembers names members)

/-- The following settings given by members and variables. -/
def load (members : List (Text × Json)) (env : Environment) : Except Failure TailSettings :=
  match check (Settings.canonical names members) env with
  | .good s => .ok s
  | .bad ps => .error (.invalid ps)

end TailSettings

end LogRelay
