import LogRelay.Json.Parser

/-!
# Decoded log records

A `Message` is the members of a record.  The lenient accessors treat a member of another type as
absent; the `require` accessors report it (`ShapeError`), so that a simpler layout can be chosen.
-/

namespace LogRelay

/-- A number in a record. -/
inductive Number where
  | int (n : Int)
  | float (d : Double)

/-- Whether a number is zero. -/
def Number.isZero : Number → Bool
  | .int n => n == 0
  | .float d => d.isZero

/-- The number as a value. -/
def Number.toJson : Number → Json
  | .int n => .int n
  | .float d => .float d

/-- The text of a number. -/
def Number.text (n : Number) : Text := n.toJson.display

/-- A member that is not of the type a layout needs. -/
structure ShapeError where
  key : Text
  expected : Text
deriving DecidableEq

/-- A decoded record: its members with distinct keys, in order of first appearance. -/
structure Message where
  members : List (Text × Json)

namespace Message

/-- The value of a member. -/
def get? (m : Message) (key : Text) : Option Json := m.members.lookup key

/-- The keys of all members. -/
def keys (m : Message) : List Text := m.members.map Prod.fst

/-- Whether a member is there and not null. -/
def has (m : Message) (key : Text) : Bool :=
  match m.get? key with
  | none | some .null => false
  | some _ => true

/-- A text member; anything else counts as the default. -/
def text (m : Message) (key : Text) (default : Text := []) : Text :=
  match m.get? key with
  | some (.text t) => t
  | _ => default

/-- A number member; truth values are not numbers. -/
def number? (m : Message) (key : Text) : Option Number :=
  match m.get? key with
  | some (.int n) => some (.int n)
  | some (.float d) => some (.float d)
  | _ => none

/-- A text member, the default if it is absent or null, or an error if it is something else. -/
def requireText (m : Message) (key : Text) (default : Text := []) : Except ShapeError Text :=
  match m.get? key with
  | none | some .null => .ok default
  | some (.text t) => .ok t
  | some _ => .error ⟨key, "string"⟩

/-- A number member, or an error if there is none. -/
def requireNumber (m : Message) (key : Text) : Except ShapeError Number :=
  match m.number? key with
  | some n => .ok n
  | none => .error ⟨key, "number"⟩

/-- The form of a message that is shown to people. -/
def inspect (m : Message) : Text :=
  "ParsedMessage(" ++ (Json.object m.members).inspect ++ ")"

end Message

end LogRelay
