import LogRelay.Json.Basic

/-!
# Writing JSON

Two layouts are in use: console lines are written without spaces and with every character that JSON
allows as it is (`compact`), the process log with a space behind each separator and in ASCII
(`spaced`).
-/

namespace LogRelay.Json

/-- How values are laid out. -/
structure Layout where
  /-- What stands between two items. -/
  itemSeparator : Text
  /-- What stands between a key and its value. -/
  keySeparator : Text
  /-- Whether all but ASCII is escaped. -/
  asciiOnly : Bool

/-- No spaces, and only what must be escaped is. -/
def compact : Layout := ⟨",", ":", false⟩

/-- A space behind each separator, in ASCII. -/
def spaced : Layout := ⟨", ", ": ", true⟩

/-- An escape by number, as a pair of surrogates where four digits do not suffice. -/
def numericEscape (n : Nat) : Text :=
  if n < 0x10000 then "\\u" ++ Text.hexDigits 4 n
  else
    "\\u" ++ Text.hexDigits 4 (0xD800 + (n - 0x10000) / 0x400) ++
      "\\u" ++ Text.hexDigits 4 (0xDC00 + (n - 0x10000) % 0x400)

/-- One code point inside a string. -/
def escapePoint (asciiOnly : Bool) (c : CodePoint) : Text :=
  if c = '"' then "\\\""
  else if c = '\\' then "\\\\"
  else if c.val = 10 then "\\n"
  else if c.val = 13 then "\\r"
  else if c.val = 9 then "\\t"
  else if c.val = 12 then "\\f"
  else if c.val = 8 then "\\b"
  else if c.val < 32 then numericEscape c.val
  else if asciiOnly && 126 < c.val then numericEscape c.val
  else [c]

/-- A text as a JSON string. -/
def writeText (asciiOnly : Bool) (t : Text) : Text :=
  "\"" ++ t.flatMap (escapePoint asciiOnly) ++ "\""

/-- The literal of a floating point number. -/
def writeDouble : Double → Text
  | .nan => "NaN"
  | .infinite negative => if negative then "-Infinity" else "Infinity"
  | d => d.text

mutual

/-- A value in a layout. -/
def write (layout : Layout) : Json → Text
  | null => "null"
  | bool b => if b then "true" else "false"
  | int n => Text.ofInt n
  | float d => writeDouble d
  | text t => writeText layout.asciiOnly t
  | array items => "[" ++ Text.joinWith layout.itemSeparator (writeItems layout items) ++ "]"
  | object members =>
    "\x7b" ++ Text.joinWith layout.itemSeparator (writeMembers layout members) ++ "\x7d"

/-- The items of an array. -/
def writeItems (layout : Layout) : List Json → List Text
  | [] => []
  | v :: rest => write layout v :: writeItems layout rest

/-- The members of an object. -/
def writeMembers (layout : Layout) : List (Text × Json) → List Text
  | [] => []
  | (k, v) :: rest =>
    (writeText layout.asciiOnly k ++ layout.keySeparator ++ write layout v) ::
      writeMembers layout rest

end

end LogRelay.Json
