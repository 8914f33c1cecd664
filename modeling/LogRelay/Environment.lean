import LogRelay.Json.Basic
import LogRelay.Text.Blank
import LogRelay.Text.Case
import LogRelay.Text.System

/-!
# Environment variables

Variables in the order in which they were first set.  They are set under their exact name and looked
up by settings without regard to case, the last of several matching variables winning.
-/

namespace LogRelay

/-- Variables by name, in order of first setting. -/
structure Environment where
  entries : List (Text × Text)

namespace Environment

/-- The value of the variable with exactly this name. -/
def get? (env : Environment) (name : Text) : Option Text := env.entries.lookup name

/-- The value that settings see under a name. -/
def find? (env : Environment) (name : Text) : Option Text :=
  (env.entries.reverse.find? fun v => v.1.lower == name.lower).map Prod.snd

/-- Sets a variable; one that is set already keeps its place.  The system keeps octets. -/
def set (env : Environment) (name value : Text) : Environment :=
  ⟨Json.putMember (Text.settled name) (Text.settled value) env.entries⟩

/-- Removes a variable. -/
def unset (env : Environment) (name : Text) : Environment :=
  ⟨env.entries.filter fun v => v.1 != name⟩

end Environment

/-- The entries of a comma-separated value, trimmed, without the empty ones. -/
def splitCsv (value : Text) : List Text :=
  ((value.split ',').map Text.strip).filter fun item => !item.isEmpty

end LogRelay
