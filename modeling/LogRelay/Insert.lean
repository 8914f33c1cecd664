import LogRelay.Message

/-!
# Message inserts

Records carry the values that were put into their text as members of their own.  Comment inserts are
always listed, arithmetic ones only if they are not zero; the list is in ascending order.
-/

namespace LogRelay.Insert

/-- What the keys of comment inserts begin with. -/
def commentPrefix : Text := "ibm_commentInsert"

/-- What the keys of arithmetic inserts begin with. -/
def arithPrefix : Text := "ibm_arithInsert"

/-- The least magnitude of a whole number that is written in scientific form. -/
def wholeLimit : Nat := Nat.pow 10 21

/-- A floating point insert: whole numbers of moderate size without a fraction. -/
def doubleText (d : Double) : Text :=
  match d.toInt? with
  | some n => if n.natAbs < wholeLimit then Text.ofInt n else d.text
  | none => d.text

/-- The text of an insert value. -/
def valueText : Json → Text
  | .null => []
  | .bool b => if b then "true" else "false"
  | .float d => doubleText d
  | v => v.display

/-- An insert as it is listed. -/
def entry (name : Text) (v : Json) : Text := name ++ "(" ++ valueText v ++ ")"

/-- The insert a member stands for, if it is listed. -/
def ofMember (m : Message) (key : Text) : Except ShapeError (Option Text) :=
  if commentPrefix.isPrefixOf key then
    .ok (some (entry ("Comment" ++ key.drop 11) ((m.get? key).getD .null)))
  else if arithPrefix.isPrefixOf key then
    match m.requireNumber key with
    | .error e => .error e
    | .ok n => .ok (if n.isZero then none else some (entry ("Arith" ++ key.drop 9) n.toJson))
  else .ok none

/-- The listed inserts of some members in their order. -/
def ofKeys (m : Message) : List Text → Except ShapeError (List Text)
  | [] => .ok []
  | key :: keys =>
    match ofMember m key with
    | .error e => .error e
    | .ok none => ofKeys m keys
    | .ok (some t) =>
      match ofKeys m keys with
      | .error e => .error e
      | .ok ts => .ok (t :: ts)

/-- The inserts of a message in ascending order. -/
def collect (m : Message) : Except ShapeError (List Text) :=
  match ofKeys m m.keys with
  | .error e => .error e
  | .ok ts => .ok (Text.sort ts)

end LogRelay.Insert
