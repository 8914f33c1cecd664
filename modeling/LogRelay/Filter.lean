import LogRelay.Entry
import LogRelay.Notice
import LogRelay.Settings.Filter

/-!
# Filters

Which lines are held back from the console.  The identifiers are looked for in the raw line, before
it is decoded; then lines that another instance wrote are held back, and lines of categories that
are not selected.  The first reason that applies counts.
-/

namespace LogRelay

/-- Why a line is held back. -/
inductive Suppression where
  | excludedId
  | foreignHost
  | sourceNotSelected
deriving DecidableEq

/-- The name of a reason. -/
def Suppression.name : Suppression → Text
  | .excludedId => "excluded_id"
  | .foreignHost => "foreign_host"
  | .sourceNotSelected => "source_not_selected"

namespace Filter

/-- Whether one of the identifiers occurs in a line, upper and lower case alike. -/
def isExcluded (line : Text) (ids : List Text) : Bool :=
  match (ids.map fun id => id.strip.upper).filter fun id => !id.isEmpty with
  | [] => false
  | ids =>
    let line := line.upper
    ids.any fun id => id.occursIn line

/-- Whether a message names another host; one that names none does not name this one. -/
def isForeign (m : Message) (host : Text) : Bool := !(host.occursIn (m.text "host"))

/-- What is known of the own host name. -/
abbrev HostName := Except IoError Text

/-- The filter on the raw line. -/
def checkRaw (s : FilterSettings) (line : Text) : Option Suppression :=
  if isExcluded line s.excluded then some .excludedId else none

/-- The message that the host filter looks at: that of a queue manager log, while the filter is
on. -/
def hostFiltered? (s : FilterSettings) (source : Source) (entry : Entry) : Option Message :=
  if source.isQmgrLog && s.isMultiInstance then entry.message? else none

/-- The filters on the decoded line. -/
def checkDecoded (s : FilterSettings) (host : HostName) (source : Source) (entry : Entry) :
    Option Suppression :=
  let foreign :=
    match hostFiltered? s source entry, host with
    | some m, .ok name => isForeign m name
    | _, _ => false
  if foreign then some .foreignHost
  else if isSelected source.category.name s.selector then none
  else some .sourceNotSelected

/-- What the filters on the decoded line report: that the own host name is needed and not known. -/
def notices (s : FilterSettings) (host : HostName) (source : Source)
    (entry : Entry) : List Notice :=
  match hostFiltered? s source entry, host with
  | some _, .error e => [.hostUnknown e.message]
  | _, _ => []

/-- All filters on a line. -/
def check (s : FilterSettings) (host : HostName) (source : Source) (line : Text) (entry : Entry) :
    Option Suppression :=
  (checkRaw s line).or (checkDecoded s host source entry)

end Filter

end LogRelay
