import LogRelay.Number.Shortest
import LogRelay.Text.Quoted

/-!
# JSON values

The values a log record can hold.  Integers and floating point numbers are told apart, as their
literals are, and an object keeps its members in order of first appearance.
-/

namespace LogRelay

/-- A JSON value. -/
inductive Json where
  | null
  | bool (b : Bool)
  | int (n : Int)
  | float (d : Double)
  | text (t : Text)
  | array (items : List Json)
  | object (members : List (Text × Json))

/-- The spelling of a truth value inside shown values. -/
def shownBool (b : Bool) : Text := if b then "True" else "False"

namespace Json

/-! ### Members -/

/-- Sets a member: a key that is there keeps its place, a new one goes to the end. -/
def putMember {α : Type} (key : Text) (value : α) : List (Text × α) → List (Text × α)
  | [] => [(key, value)]
  | (k, v) :: rest =>
    if k = key then (k, value) :: rest else (k, v) :: putMember key value rest

/-- Members in order of first appearance, each with its last value. -/
def collapse {α : Type} (members : List (Text × α)) : List (Text × α) :=
  members.foldl (fun ms (k, v) => putMember k v ms) []

/-! ### Shown form -/

mutual

/-- The form of a value inside a list or an object that is shown to people. -/
def inspect : Json → Text
  | null => "None"
  | bool b => shownBool b
  | int n => Text.ofInt n
  | float d => d.text
  | text t => t.quoted
  | array items => "[" ++ Text.joinWith ", " (inspectItems items) ++ "]"
  | object members => "\x7b" ++ Text.joinWith ", " (inspectMembers members) ++ "\x7d"

/-- The shown forms of some values. -/
def inspectItems : List Json → List Text
  | [] => []
  | v :: rest => inspect v :: inspectItems rest

/-- The shown forms of some members. -/
def inspectMembers : List (Text × Json) → List Text
  | [] => []
  | (k, v) :: rest => (k.quoted ++ ": " ++ inspect v) :: inspectMembers rest

end

/-- The form of a value that is shown on its own: a text stands without quotes. -/
def display : Json → Text
  | text t => t
  | v => v.inspect

end Json

end LogRelay
