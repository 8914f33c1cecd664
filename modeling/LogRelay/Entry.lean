import LogRelay.Message

/-!
# Log lines

A line that begins with a brace is structured and is decoded as a record; any other line is free
text.  A structured line that cannot be decoded is kept with the reason.
-/

namespace LogRelay

/-- Why a structured line is not a record. -/
inductive Undecodable where
  | malformed (fault : Json.Fault)
  /-- The line is a value, but not an object. -/
  | notObject (v : Json)

/-- The name of the type of a value. -/
def Json.typeName : Json → Text
  | .null => "NoneType"
  | .bool _ => "bool"
  | .int _ => "int"
  | .float _ => "float"
  | .text _ => "str"
  | .array _ => "list"
  | .object _ => "dict"

/-- The wording of the reason why a line is not a record. -/
def Undecodable.message (line : Text) : Undecodable → Text
  | .malformed fault => fault.message line
  | .notObject v => "expected a JSON object, got " ++ v.typeName

/-- A log line by what it holds. -/
inductive Entry where
  | plain
  | record (m : Message)
  | undecodable (reason : Undecodable)

namespace Entry

/-- Whether a line looks like a record. -/
def isStructured (line : Text) : Bool :=
  match line with
  | c :: _ => c = '\x7b'
  | [] => false

/-- The record a line stands for. -/
def decode (line : Text) : Except Undecodable Message :=
  match Json.parse line with
  | .error fault => .error (.malformed fault)
  | .ok (.object members) => .ok ⟨members⟩
  | .ok v => .error (.notObject v)

/-- What a line holds. -/
def ofLine (line : Text) : Entry :=
  if isStructured line then
    match decode line with
    | .ok m => .record m
    | .error reason => .undecodable reason
  else .plain

/-- Whether the line was taken for a record, even if it is none. -/
def isMarked : Entry → Bool
  | plain => false
  | record _ | undecodable _ => true

/-- The message of a record. -/
def message? : Entry → Option Message
  | record m => some m
  | _ => none

/-- The wording of the reason why a line that was taken for a record is none. -/
def error? (line : Text) : Entry → Option Text
  | undecodable reason => some (reason.message line)
  | plain | record _ => none

end Entry

/-- The message a line stands for, if it is a record. -/
def Message.ofLine? (line : Text) : Option Message :=
  if Entry.isStructured line then (Entry.decode line).toOption else none

end LogRelay
