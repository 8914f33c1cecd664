import LogRelay.Yaml.Timestamp

/-!
# Tags

A tag says what a node is.  A scalar without one gets it from its text (`Tag.ofPlain`): the words
and numbers of version 1.1 of the format are recognised, all else is text.
-/

namespace LogRelay.Yaml

/-- What a node is. -/
inductive Tag where
  | null
  | bool
  | int
  | float
  | text
  | timestamp
  | binary
  | sequence
  | mapping
  | set
  | orderedMapping
  | pairs
  /-- The key whose value is merged into the mapping around it. -/
  | merge
  /-- The key for a value by itself. -/
  | value
  /-- A tag without a meaning here. -/
  | unknown
deriving DecidableEq

namespace Tag

/-- The addresses of the tags. -/
def addresses : List (Text × Tag) :=
  ([("null", null), ("bool", bool), ("int", int), ("float", float), ("str", text),
    ("timestamp", timestamp), ("binary", binary), ("seq", sequence), ("map", mapping), ("set", set),
    ("omap", orderedMapping), ("pairs", pairs), ("merge", merge), ("value", value)] :
      List (String × Tag)).map fun (name, tag) => ("tag:yaml.org,2002:" ++ (name : Text), tag)

/-- The tag with an address. -/
def ofAddress (address : Text) : Tag := (addresses.lookup address).getD unknown

/-! ### Plain scalars -/

/-- The words for a truth value. -/
def boolWords : List Text :=
  ["yes", "Yes", "YES", "no", "No", "NO", "true", "True", "TRUE", "false", "False", "FALSE",
    "on", "On", "ON", "off", "Off", "OFF"]

/-- The words for nothing. -/
def nullWords : List Text := ["~", "null", "Null", "NULL", ""]

/-- The text behind a sign. -/
def unsigned (t : Text) : Text := (Validation.signSpan t).2

/-- Whether a text is not empty and all in a class, or an underscore. -/
def isRun (p : CodePoint → Bool) (t : Text) : Bool :=
  !t.isEmpty && t.all fun c => p c || c = '_'

/-- A binary digit. -/
def isBinary (c : CodePoint) : Bool := c = '0' || c = '1'

/-- An octal digit. -/
def isOctal (c : CodePoint) : Bool := 48 ≤ c.val && c.val ≤ 55

/-- A hexadecimal digit. -/
def isHex (c : CodePoint) : Bool := (Json.hexValue? c).isSome

/-- Whether a text begins with a digit and goes on with digits and underscores. -/
def isWhole (t : Text) : Bool := (t.take 1).any Text.isDigit && isRun Text.isDigit t

/-- Whether a text is a number below sixty, of one or two digits. -/
def isSixtieth (t : Text) : Bool :=
  t.all Text.isDigit && (t.length == 1 || (t.length == 2 && (t.take 1).all fun c => c.val ≤ 53))

/-- Whether a text is an integer: binary, octal, hexadecimal, decimal, or to the base of sixty. -/
def isInt (t : Text) : Bool :=
  match unsigned t with
  | [] => false
  | c :: rest =>
    if c = '0' then
      match rest with
      | [] => true
      | b :: digits =>
        if b = 'b' then isRun isBinary digits
        else if b = 'x' then isRun isHex digits
        else isRun isOctal rest
    else
      match Text.split ':' (c :: rest) with
      | whole :: sixtieths => isWhole whole && sixtieths.all isSixtieth
      | [] => false

/-- Whether a text is empty or an exponent with its sign. -/
def isExponent (t : Text) : Bool :=
  match t with
  | [] => true
  | e :: sign :: digits =>
    (e = 'e' || e = 'E') && (sign = '+' || sign = '-') && !digits.isEmpty && digits.all Text.isDigit
  | _ => false

/-- Whether a text is a floating point number; a point is needed, and an exponent needs its sign. -/
def isFloat (t : Text) : Bool :=
  let body := unsigned t
  let places (t : Text) : Text := t.dropWhile fun c => Text.isDigit c || c = '_'
  if ([".inf", ".Inf", ".INF"] : List Text).contains body then true
  else if ([".nan", ".NaN", ".NAN"] : List Text).contains t then true
  else
    match cutFirst ('.' : CodePoint) body with
    | none => false
    | some ([], rest) => body == t && (rest.take 1).any Text.isDigit && isExponent (places rest)
    | some (whole, rest) =>
      match Text.split ':' whole with
      | whole :: sixtieths =>
        isWhole whole && sixtieths.all isSixtieth &&
          if sixtieths.isEmpty then isExponent (places rest) else (places rest).isEmpty
      | [] => false

/-- The tag of a plain scalar without a line feed at its end. -/
def ofWord (t : Text) : Tag :=
  if boolWords.contains t then bool
  else if isFloat t then float
  else if isInt t then int
  else if t = "<<" then merge
  else if nullWords.contains t then null
  else if Timestamp.isTimestamp t then timestamp
  else if t = "=" then value
  else if t = "!" ∨ t = "&" ∨ t = "*" then unknown
  else text

/-- The tag of a scalar that has none; one line feed at its end does not count, unless it is all
there is. -/
def ofPlain (t : Text) : Tag := if t = "\n" then text else ofWord t.withoutLineFeed

end Tag

end LogRelay.Yaml
