import LogRelay.Json.Basic

/-!
# Reading JSON

`Json.parse` reads one value and refuses anything after it.  A reader takes the text that is left
and returns what it leaves; a fault carries the text from the faulty place on, so that its position
is a difference of two lengths (`Fault.message`).

Beyond the standard the numbers `NaN`, `Infinity` and `-Infinity` are read, and an escape may stand
for a lone surrogate.  Nesting is bounded by `depthLimit` and integers by `digitLimit`.
-/

namespace LogRelay.Json

/-- What was expected or found where reading stopped. -/
inductive Reason where
  | value
  | propertyName
  | colon
  | comma
  | unterminated
  | control
  | escape
  | unicodeEscape
  | extraData
deriving DecidableEq

/-- Why a text is not read. -/
inductive Fault where
  /-- The text from the faulty place on. -/
  | malformed (reason : Reason) (rest : Text)
  | tooManyDigits (count : Nat)
  /-- The kind of the container that is one too deep. -/
  | tooDeep (isObject : Bool)

/-- How deep containers may nest. -/
def depthLimit : Nat := 990

/-- How many digits an integer may have. -/
def digitLimit : Nat := 4300

/-! ### Error texts -/

/-- The wording of a reason. -/
def Reason.text : Reason → Text
  | .value => "Expecting value"
  | .propertyName => "Expecting property name enclosed in double quotes"
  | .colon => "Expecting ':' delimiter"
  | .comma => "Expecting ',' delimiter"
  | .unterminated => "Unterminated string starting at"
  | .control => "Invalid control character at"
  | .escape => "Invalid \\escape"
  | .unicodeEscape => "Invalid \\uXXXX escape"
  | .extraData => "Extra data"

/-- The place in a text that has some code points before it: line and column from one. -/
def placeText (before : Text) : Text :=
  let line := before.count ('\n' : CodePoint) + 1
  let column := (before.reverse.takeWhile (· != ('\n' : CodePoint))).length + 1
  "line " ++ Text.ofNat line ++ " column " ++ Text.ofNat column ++ " (char " ++
    Text.ofNat before.length ++ ")"

/-- The wording of a fault found in a text. -/
def Fault.message (whole : Text) : Fault → Text
  | .malformed reason rest =>
    reason.text ++ ": " ++ placeText (whole.take (whole.length - rest.length))
  | .tooManyDigits count =>
    "Exceeds the limit (" ++ Text.ofNat digitLimit ++
      " digits) for integer string conversion: value has " ++
      Text.ofNat count ++ " digits; use sys.set_int_max_str_digits() to increase the limit"
  | .tooDeep isObject =>
    "maximum recursion depth exceeded while decoding a JSON " ++
      (if isObject then "object" else "array" : Text) ++ " from a unicode string"

/-! ### Tokens -/

/-- White space between tokens. -/
def isSpace (c : CodePoint) : Bool := c = ' ' || c = '\t' || c = '\n' || c = '\r'

/-- A text from its first token on. -/
def skipSpace (s : Text) : Text := s.dropWhile isSpace

/-- The number a hexadecimal digit stands for. -/
def hexValue? (c : CodePoint) : Option Nat :=
  if 48 ≤ c.val ∧ c.val ≤ 57 then some (c.val - 48)
  else if 97 ≤ c.val ∧ c.val ≤ 102 then some (c.val - 87)
  else if 65 ≤ c.val ∧ c.val ≤ 70 then some (c.val - 55)
  else none

/-- The number four hexadecimal digits stand for. -/
def hexValue4? (a b c d : CodePoint) : Option Nat :=
  match hexValue? a, hexValue? b, hexValue? c, hexValue? d with
  | some a, some b, some c, some d => some (((a * 16 + b) * 16 + c) * 16 + d)
  | _, _, _, _ => none

/-- The code point of a one-letter escape. -/
def shortEscape? (c : CodePoint) : Option CodePoint :=
  if c = '"' ∨ c = '\\' ∨ c = '/' then some c
  else if c = 'b' then some (CodePoint.ofNat 8)
  else if c = 'f' then some (CodePoint.ofNat 12)
  else if c = 'n' then some '\n'
  else if c = 'r' then some '\r'
  else if c = 't' then some '\t'
  else none

/-- Whether a number is that of a leading surrogate. -/
def isHighSurrogate (n : Nat) : Bool := 0xD800 ≤ n && n ≤ 0xDBFF

/-- Whether a number is that of a trailing surrogate. -/
def isLowSurrogate (n : Nat) : Bool := 0xDC00 ≤ n && n ≤ 0xDFFF

/-- The code point of a pair of surrogates. -/
def joinSurrogates (high low : Nat) : CodePoint :=
  CodePoint.ofNat (0x10000 + (high - 0xD800) * 0x400 + (low - 0xDC00))

/-- Adds the code point of a numeric escape to what has been read in reverse: behind an escape for a
leading surrogate (`lead`) a trailing one completes the pair. -/
def pushEscaped (lead : Bool) (read : Text) (n : Nat) : Text :=
  match lead && isLowSurrogate n, read with
  | true, high :: before => joinSurrogates high.val n :: before
  | _, _ => CodePoint.ofNat n :: read

/-- Reads a string behind its opening quote.  `opening` is the text from that quote on, `read` what
has been read, in reverse, and `lead` tells whether its last code point is a leading surrogate that
was written as an escape. -/
def stringFrom (opening : Text) (lead : Bool) (read : Text) : Text → Except Fault (Text × Text)
  | [] => .error (.malformed .unterminated opening)
  | c :: rest =>
    if c = '"' then .ok (read.reverse, rest)
    else if c.val < 32 then .error (.malformed .control (c :: rest))
    else if c = '\\' then
      match rest with
      | [] => .error (.malformed .unterminated opening)
      | e :: after =>
        if e = 'u' then
          match after with
          | h₁ :: h₂ :: h₃ :: h₄ :: more =>
            match hexValue4? h₁ h₂ h₃ h₄ with
            | some n =>
              if more.isEmpty then .error (.malformed .unicodeEscape (e :: after))
              else stringFrom opening (isHighSurrogate n) (pushEscaped lead read n) more
            | none => .error (.malformed .unicodeEscape (e :: after))
          | _ => .error (.malformed .unicodeEscape (e :: after))
        else
          match shortEscape? e with
          | some d => stringFrom opening false (d :: read) after
          | none => .error (.malformed .escape (c :: rest))
    else stringFrom opening false (c :: read) rest
termination_by structural s => s

/-- Reads a string behind its opening quote. -/
def string (rest : Text) : Except Fault (Text × Text) := stringFrom ('"' :: rest) false [] rest

/-- The digits at the start of a text and what follows them. -/
def digitSpan (s : Text) : Text × Text := s.span Text.isDigit

/-- The fraction at the start of a text, if a digit follows the point. -/
def fractionSpan (s : Text) : Option (Text × Text) :=
  match s with
  | c :: rest =>
    if c = '.' then
      match digitSpan rest with
      | ([], _) => none
      | found => some found
    else none
  | [] => none

/-- The sign at the start of a text, whether it is a minus, and what follows it. -/
def signSpan (s : Text) : Bool × Text :=
  match s with
  | c :: rest => if c = '-' then (true, rest) else if c = '+' then (false, rest) else (false, s)
  | [] => (false, [])

/-- The exponent at the start of a text, if there is a digit in it. -/
def exponentSpan (s : Text) : Option (Int × Text) :=
  match s with
  | c :: rest =>
    if c = 'e' || c = 'E' then
      let (negative, rest) := signSpan rest
      match digitSpan rest with
      | ([], _) => none
      | (ds, after) =>
        let n : Int := Text.digitsValue ds
        some (if negative then -n else n, after)
    else none
  | [] => none

/-- The digits of the whole part at the start of a text: a zero stands alone. -/
def wholeSpan (s : Text) : Text × Text :=
  match s with
  | c :: rest => if c = '0' then ([c], rest) else digitSpan s
  | [] => ([], [])

/-- Reads a number; `whole` is the text to blame if there is none. -/
def number (whole : Text) (negative : Bool) (s : Text) : Except Fault (Json × Text) :=
  let (ds, rest) := wholeSpan s
  if ds.isEmpty then .error (.malformed .value whole)
  else
    let fraction := fractionSpan rest
    let afterFraction := (fraction.map Prod.snd).getD rest
    let power := exponentSpan afterFraction
    match fraction, power with
    | none, none =>
      if digitLimit < ds.length then .error (.tooManyDigits ds.length)
      else
        let n : Int := Text.digitsValue ds
        .ok (.int (if negative then -n else n), rest)
    | _, _ =>
      let places := (fraction.map Prod.fst).getD []
      let exponent := (power.map Prod.fst).getD 0
      .ok (.float
        (.ofDecimal negative (Text.digitsValue (ds ++ places)) (exponent - places.length)),
        (power.map Prod.snd).getD afterFraction)

/-- The words that stand for a value. -/
def words : List (Text × Json) :=
  [("null", .null), ("true", .bool true), ("false", .bool false), ("NaN", .float .nan),
    ("Infinity", .float (.infinite false)), ("-Infinity", .float (.infinite true))]

/-- Reads a word or a number. -/
def scalar (s : Text) : Except Fault (Json × Text) :=
  match words.find? fun (word, _) => word.isPrefixOf s with
  | some (word, v) => .ok (v, s.drop word.length)
  | none =>
    match s with
    | c :: rest => if c = '-' then number s true rest else number s false s
    | [] => .error (.malformed .value s)

/-! ### Values -/

mutual

/-- Reads a value; every step spends `fuel`, and entering a container `depth`. -/
def value : (fuel depth : Nat) → Text → Except Fault (Json × Text)
  | 0, _, s => .error (.malformed .value s)
  | fuel + 1, depth, s =>
    match s with
    | [] => .error (.malformed .value s)
    | c :: rest =>
      if c = '"' then
        match string rest with
        | .error e => .error e
        | .ok (t, rest) => .ok (.text t, rest)
      else if c = '\x7b' then
        if depth = 0 then .error (.tooDeep true)
        else
          match skipSpace rest with
          | [] => members fuel (depth - 1) [] []
          | d :: after =>
            if d = '\x7d' then .ok (.object [], after) else members fuel (depth - 1) [] (d :: after)
      else if c = '[' then
        if depth = 0 then .error (.tooDeep false)
        else
          match skipSpace rest with
          | [] => items fuel (depth - 1) [] []
          | d :: after =>
            if d = ']' then .ok (.array [], after) else items fuel (depth - 1) [] (d :: after)
      else scalar s

/-- Reads the rest of an array from one of its values on; `read` holds the values before it in
reverse. -/
def items : (fuel depth : Nat) → List Json → Text → Except Fault (Json × Text)
  | 0, _, _, s => .error (.malformed .value s)
  | fuel + 1, depth, read, s =>
    match value fuel depth s with
    | .error e => .error e
    | .ok (v, rest) =>
      match skipSpace rest with
      | [] => .error (.malformed .comma [])
      | c :: after =>
        if c = ']' then .ok (.array (v :: read).reverse, after)
        else if c = ',' then items fuel depth (v :: read) (skipSpace after)
        else .error (.malformed .comma (c :: after))

/-- Reads the rest of an object from one of its keys on; `read` holds the members before it in
reverse. -/
def members : (fuel depth : Nat) → List (Text × Json) → Text → Except Fault (Json × Text)
  | 0, _, _, s => .error (.malformed .value s)
  | fuel + 1, depth, read, s =>
    match s with
    | [] => .error (.malformed .propertyName s)
    | q :: rest =>
      if q ≠ '"' then .error (.malformed .propertyName s)
      else
        match string rest with
        | .error e => .error e
        | .ok (key, rest) =>
          match skipSpace rest with
          | [] => .error (.malformed .colon [])
          | c :: after =>
            if c ≠ ':' then .error (.malformed .colon (c :: after))
            else
              match value fuel depth (skipSpace after) with
              | .error e => .error e
              | .ok (v, rest) =>
                match skipSpace rest with
                | [] => .error (.malformed .comma [])
                | d :: after =>
                  if d = '\x7d' then .ok (.object (collapse ((key, v) :: read).reverse), after)
                  else if d = ',' then members fuel depth ((key, v) :: read) (skipSpace after)
                  else .error (.malformed .comma (d :: after))

end

/-- Reads a text that is one value and white space. -/
def parse (s : Text) : Except Fault Json :=
  match value (2 * s.length + 2) depthLimit (skipSpace s) with
  | .error e => .error e
  | .ok (v, rest) =>
    match skipSpace rest with
    | [] => .ok v
    | rest => .error (.malformed .extraData rest)

end LogRelay.Json
