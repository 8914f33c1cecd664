import LogRelay.Text.Basic

/-!
# Trace levels

The levels of trace records and the one-character codes they have in the console layout.
-/

namespace LogRelay

/-- A known trace level. -/
inductive TraceLevel where
  | audit
  | info
  | event
  | entry
  | exit
  | fine
  | finer
  | finest
deriving DecidableEq

namespace TraceLevel

/-- All known levels. -/
def all : List TraceLevel := [audit, info, event, entry, exit, fine, finer, finest]

/-- The name of a level in records. -/
def name : TraceLevel → Text
  | audit => "AUDIT"
  | info => "INFO"
  | event => "EVENT"
  | entry => "ENTRY"
  | exit => "EXIT"
  | fine => "FINE"
  | finer => "FINER"
  | finest => "FINEST"

/-- The level with a name. -/
def ofName? (n : Text) : Option TraceLevel := all.find? (·.name = n)

/-- The code of a level. -/
def code : TraceLevel → CodePoint
  | audit => 'A'
  | info => 'I'
  | event => '1'
  | entry => '>'
  | exit => '<'
  | fine => '1'
  | finer => '2'
  | finest => '3'

end TraceLevel

/-- The code of a level name: unknown names are coded by their first character. -/
def traceCode (levelName : Text) : Text :=
  match TraceLevel.ofName? levelName with
  | some level => [level.code]
  | none => levelName.take 1

end LogRelay
