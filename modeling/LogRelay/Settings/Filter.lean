import LogRelay.Environment
import LogRelay.Source

/-!
# Filter settings

The variables that decide which lines reach the console.  They are read again for every line, so
that a change takes effect at once.
-/

namespace LogRelay

/-- The filter variables as they are set. -/
structure FilterSettings where
  excludeIds : Text
  consoleSource : Text
  multiInstance : Text
deriving DecidableEq

namespace FilterSettings

/-- The settings an environment holds; a variable that is not set counts as empty. -/
def load (env : Environment) : FilterSettings where
  excludeIds := (env.find? "MQ_LOGGING_CONSOLE_EXCLUDE_ID").getD []
  consoleSource := (env.find? "MQ_LOGGING_CONSOLE_SOURCE").getD []
  multiInstance := (env.find? "MQ_MULTI_INSTANCE").getD []

/-- The excluded identifiers in upper case. -/
def excluded (s : FilterSettings) : List Text := (splitCsv s.excludeIds).map Text.upper

/-- The selected categories in lower case. -/
def selector (s : FilterSettings) : List Text := (splitCsv s.consoleSource).map Text.lower

/-- Whether lines of other instances are held back; only `true` turns this on. -/
def isMultiInstance (s : FilterSettings) : Bool := s.multiInstance.strip.lower = "true"

end FilterSettings

/-- Whether the console takes a category: an empty selector takes all, and a name that is no
category is never taken. -/
def isSelected (category : Text) (selector : List Text) : Bool :=
  selector.isEmpty || (selector.contains category && (Category.ofName? category).isSome)

end LogRelay
