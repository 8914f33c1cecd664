import LogRelay.Text.Quoted
import LogRelay.Yaml.Timestamp

/-!
# Data of a settings file

What a settings file holds once its tags have been applied.  Collections stand in cells and are
known by the numbers of these, since several aliases may lead to one collection, and it may hold
itself.  Only atoms are keys; numbers and truth values that are equal are the same key.
-/

namespace LogRelay.Yaml

/-- A datum that has no parts. -/
inductive Atom where
  | null
  | bool (b : Bool)
  | int (n : Int)
  | float (d : Double)
  /-- Not a number, with the node it comes from; the word for it stands for one and the same. -/
  | nan (node : Option Nat)
  | text (t : Text)
  | timestamp (t : Timestamp)
  | octets (bytes : Bytes)

/-- An atom, or the number of a cell. -/
inductive Datum where
  | atom (a : Atom)
  | cell (n : Nat)

/-- A collection. -/
inductive Cell where
  | list (items : List Datum)
  /-- Members in order of first appearance. -/
  | map (members : List (Atom × Datum))
  | set (items : List Atom)
  | pair (key value : Datum)

/-- What a file holds. -/
structure Document where
  cells : Array Cell
  root : Datum

/-! ### Atoms -/

namespace Atom

/-- A floating point number that comes from a node. -/
def ofDouble (node : Nat) : Double → Atom
  | .nan => nan (some node)
  | d => float d

/-- The failure of an integer with too many digits to be shown. -/
def unshowable : Failure :=
  .badValue ("Exceeds the limit (4300 digits) for integer string conversion; " ++
    "use sys.set_int_max_str_digits() to increase the limit")

/-- The form of an atom inside a shown collection. -/
def inspect : Atom → Except Failure Text
  | null => .ok "None"
  | bool b => .ok (shownBool b)
  | int n =>
    let ds := Text.ofNat n.natAbs
    if Json.digitLimit < ds.length then .error unshowable else .ok (if n < 0 then '-' :: ds else ds)
  | float d => .ok d.text
  | nan _ => .ok (Double.text .nan)
  | text t => .ok t.quoted
  | timestamp t => .ok t.inspect
  | octets bytes => .ok (Text.quotedOctets bytes)

/-- The form of an atom that is shown on its own. -/
def display : Atom → Except Failure Text
  | text t => .ok t
  | timestamp t => .ok t.text
  | a => a.inspect

/-- The name of the type of an atom. -/
def typeName : Atom → Text
  | null => "NoneType"
  | bool _ => "bool"
  | int _ => "int"
  | float _ | nan _ => "float"
  | text _ => "str"
  | timestamp ⟨_, _, _, none⟩ => "datetime.date"
  | timestamp _ => "datetime.datetime"
  | octets _ => "bytes"

/-- Whether there is nothing to an atom: nothing at all, a zero, or an empty text. -/
def isVoid : Atom → Bool
  | null => true
  | bool b => !b
  | int n => n == 0
  | float d => d.isZero
  | text t => t.isEmpty
  | octets bytes => bytes.isEmpty
  | nan _ | timestamp _ => false

/-! ### Keys -/

/-- The number an atom is, if it is one: as a fraction, or an infinity by its sign. -/
def number? : Atom → Option ((Int × Nat) ⊕ Bool)
  | bool b => some (.inl (if b then 1 else 0, 1))
  | int n => some (.inl (n, 1))
  | float (.infinite negative) => some (.inr negative)
  | float d => d.ratio?.map .inl
  | _ => none

/-- Whether two numbers are equal. -/
def sameNumber : (Int × Nat) ⊕ Bool → (Int × Nat) ⊕ Bool → Bool
  | .inl (a, b), .inl (c, d) => a * d == c * b
  | .inr s, .inr t => s == t
  | _, _ => false

/-- Whether two atoms are the same key. -/
def sameKey (a b : Atom) : Bool :=
  match a, b with
  | null, null => true
  | nan m, nan n => m == n
  | text s, text t => s == t
  | timestamp s, timestamp t => s.isSame t
  | octets s, octets t => s == t
  | _, _ =>
    match a.number?, b.number? with
    | some x, some y => sameNumber x y
    | _, _ => false

end Atom

/-! ### Collections -/

namespace Cell

/-- Sets a member: a key that is there keeps its place and its form. -/
def putMember (key : Atom) (value : Datum) : List (Atom × Datum) → List (Atom × Datum)
  | [] => [(key, value)]
  | (k, v) :: rest =>
    if k.sameKey key then (k, value) :: rest else (k, v) :: putMember key value rest

/-- The member with a name. -/
def member? (name : Text) (members : List (Atom × Datum)) : Option Datum :=
  (members.find? fun m => m.1.sameKey (.text name)).map Prod.snd

/-- The name of the type of a collection. -/
def typeName : Cell → Text
  | list _ => "list"
  | map _ => "dict"
  | set _ => "set"
  | pair .. => "tuple"

/-- Whether a collection has no items. -/
def isVoid : Cell → Bool
  | list items => items.isEmpty
  | map members => members.isEmpty
  | set items => items.isEmpty
  | pair .. => false

/-- What is shown for a collection inside itself. -/
def ellipsis : Cell → Text
  | list _ => "[...]"
  | map _ => "\x7b...\x7d"
  | set _ => "set(...)"
  | pair .. => "(...)"

/-- A collection around the shown forms of its parts. -/
def around (c : Cell) (parts : List Text) : Text :=
  let inner := Text.joinWith ", " parts
  match c with
  | list _ => "[" ++ inner ++ "]"
  | set [] => "set()"
  | map _ | set _ => "\x7b" ++ inner ++ "\x7d"
  | pair .. => "(" ++ inner ++ ")"

end Cell

namespace Document

/-- A document without members. -/
def empty : Document := ⟨#[.map []], .cell 0⟩

/-- The collection in a cell. -/
def collection (d : Document) (n : Nat) : Cell := d.cells[n]?.getD (.list [])

/-- The name of the type of a datum. -/
def typeName (d : Document) : Datum → Text
  | .atom a => a.typeName
  | .cell n => (d.collection n).typeName

/-- Whether there is nothing to a datum. -/
def isVoid (d : Document) : Datum → Bool
  | .atom a => a.isVoid
  | .cell n => (d.collection n).isVoid

/-- The form of a datum inside shown collections, those in the cells `path`.  A path has no cell
twice, so that it is shorter than `fuel`. -/
def inspectIn (d : Document) : (fuel : Nat) → (path : List Nat) → Datum → Except Failure Text
  | _, _, .atom a => a.inspect
  | 0, _, .cell n => .ok (d.collection n).ellipsis
  | fuel + 1, path, .cell n =>
    let c := d.collection n
    let part := inspectIn d fuel (n :: path)
    if path.contains n then .ok c.ellipsis
    else
      c.around <$>
        match c with
        | .list items => items.mapM part
        | .map members => members.mapM fun (k, v) => do return (← k.inspect) ++ ": " ++ (← part v)
        | .set items => items.mapM Atom.inspect
        | .pair key value => do return [← part key, ← part value]

/-- The form of a datum that is shown on its own. -/
def display (d : Document) : Datum → Except Failure Text
  | .atom a => a.display
  | .cell n => d.inspectIn (d.cells.size + 2) [] (.cell n)

end Document

end LogRelay.Yaml
