import LogRelay.Json.Parser
import LogRelay.Text.Blank
import LogRelay.Text.Case

/-!
# Validation

Values that come from outside are checked and brought to their type.  `Checked` keeps all problems
of a group of values, in the order of its members.  Numbers may be given as texts, since variables
hold nothing else.
-/

namespace LogRelay

/-- One value that is not accepted. -/
structure Problem where
  /-- The names that lead to the value, outermost first. -/
  location : List Text
  kind : Text
  message : Text
deriving DecidableEq

/-- A problem inside a named value. -/
def Problem.under (name : Text) (p : Problem) : Problem := { p with location := name :: p.location }

/-- A checked value, or everything that is wrong with it. -/
inductive Checked (α : Type) where
  | good (value : α)
  | bad (problems : List Problem)

namespace Checked

variable {α β : Type}

/-- The problems of a value. -/
def problems : Checked α → List Problem
  | good _ => []
  | bad ps => ps

/-- Gives a further checked value to a function; the problems of both are kept. -/
def and (f : Checked (α → β)) (x : Checked α) : Checked β :=
  match f, x with
  | good f, good x => good (f x)
  | f, x => bad (f.problems ++ x.problems)

/-- A value with one problem. -/
def refuse (kind message : Text) : Checked α := bad [⟨[], kind, message⟩]

/-- A checked value inside a named one. -/
def under (name : Text) : Checked α → Checked α
  | good x => good x
  | bad ps => bad (ps.map (Problem.under name))

/-- A member that must be given. -/
def required (check : Json → Checked α) : Option Json → Checked α
  | some v => check v
  | none => refuse "missing" "Field required"

/-- A member that need not be given. -/
def optional (default : α) (check : Json → Checked α) : Option Json → Checked α
  | some v => check v
  | none => good default

end Checked

namespace Validation

/-- White space around numbers; the separator controls do not count. -/
def isWhite (c : CodePoint) : Bool := Text.isBlank c && !(28 ≤ c.val && c.val ≤ 31)

/-- A text without the white space around it. -/
def trim (t : Text) : Text := ((t.dropWhile isWhite).reverse.dropWhile isWhite).reverse

/-- A number without the underscores that group its digits; none may be first, last or doubled. -/
def ungrouped? (t : Text) : Option Text :=
  if t.contains ('_' : CodePoint) && !((t.split '_').any List.isEmpty) then
    some (t.filter (· != ('_' : CodePoint)))
  else none

/-- The sign at the start of a number, and the rest. -/
def signSpan (t : Text) : Bool × Text :=
  match t with
  | c :: rest => if c = '-' then (true, rest) else if c = '+' then (false, rest) else (false, t)
  | [] => (false, [])

/-- The number a text of digits, point and exponent stands for; one digit at least is needed. -/
def decimal? (t : Text) : Option Double :=
  let (negative, body) := signSpan t
  if body.lower = "inf" ∨ body.lower = "infinity" then some (.infinite negative)
  else if body.lower = "nan" then some .nan
  else
    let (whole, rest) := Json.digitSpan body
    let (places, rest) : Text × Text :=
      match rest with
      | c :: after => if c = '.' then Json.digitSpan after else ([], rest)
      | [] => ([], [])
    if whole.isEmpty && places.isEmpty then none
    else
      let value (e : Int) : Option Double :=
        some (.ofDecimal negative (Text.digitsValue (whole ++ places)) (e - places.length))
      if rest.isEmpty then value 0
      else
        match Json.exponentSpan rest with
        | some (e, []) => value e
        | _ => none

/-- The floating point number a text stands for. -/
def double? (t : Text) : Option Double :=
  (decimal? (trim t)).or ((ungrouped? t).bind decimal?)

/-! ### Integers in texts -/

/-- How an integer is read from a text. -/
inductive IntReading where
  | value (n : Int)
  /-- The text is no integer. -/
  | none
  /-- The integer has too many digits. -/
  | tooLong

/-- The integer that a text of digits stands for: a minus may stand before it, and no zero. -/
def plainInt (t : Text) : IntReading :=
  let (negative, body) : Bool × Text :=
    match t with
    | c :: rest => if c = '-' then (true, rest) else (false, t)
    | [] => (false, [])
  match body with
  | [] => .none
  | c :: rest =>
    if c = '0' then if rest.isEmpty then .value 0 else .none
    else
      let (digits, more) := Json.digitSpan body
      if Json.digitLimit < (if negative then 1 else 0) + digits.length then .tooLong
      else if digits.isEmpty || !more.isEmpty then .none
      else
        let n : Int := Text.digitsValue digits
        .value (if negative then -n else n)

/-- Drops the zeros before a number and the underscores among them, of which the last code point
`last` stays where nothing else is left, or a point follows.  Zeros may also stand before a
minus. -/
def dropZeros (last : CodePoint) : Text → Option Text
  | [] => some [last]
  | c :: rest =>
    if c = '0' ∨ c = '_' then dropZeros c rest
    else if ('1' : CodePoint).val ≤ c.val ∧ c.val ≤ ('9' : CodePoint).val ∨ c = '-' then
      some (c :: rest)
    else if c = '.' then some (last :: c :: rest)
    else none

/-- A number without the zeros before it; it begins with a digit or a minus. -/
def withoutZeros? (t : Text) : Option Text :=
  match t with
  | [] => none
  | c :: rest =>
    if c = '0' then dropZeros c rest
    else if ('1' : CodePoint).val ≤ c.val ∧ c.val ≤ ('9' : CodePoint).val ∨ c = '-' then some t
    else none

/-- A number without the zeros behind its point, if there are only zeros. -/
def withoutFraction (t : Text) : Text :=
  match cutFirst ('.' : CodePoint) t with
  | some (whole, places) =>
    if !places.isEmpty && places.all (· == ('0' : CodePoint)) then whole else t
  | none => t

/-- The plain form of an integer that is written with a sign, zeros, a fraction of zeros or
underscores. -/
def cleanedInt? (t : Text) : Option Text :=
  let unsigned (t : Text) : Option Text := (withoutZeros? t).map withoutFraction
  let signed : Option Text :=
    match trim t with
    | [] => none
    | c :: rest =>
      if c = '+' then if rest.head? == some ('-' : CodePoint) then none else unsigned rest
      else if c = '-' then (unsigned rest).map (c :: ·)
      else unsigned (c :: rest)
  signed.map fun t => (ungrouped? t).getD t

/-- The integer a text stands for. -/
def intOfText (t : Text) : IntReading :=
  match plainInt t with
  | .none =>
    match cleanedInt? t with
    | some cleaned => plainInt cleaned
    | none => .none
  | r => r

/-! ### Values of a type -/

/-- A value that must be made of characters: it holds no lone surrogates. -/
def characters {α : Type} (t : Text) (k : Text → Checked α) : Checked α :=
  if t.any CodePoint.isSurrogate then
    .refuse "string_unicode"
      "Input should be a valid string, unable to parse raw data as a unicode string"
  else k t

/-- A text. -/
def text : Json → Checked Text
  | .text t => .good t
  | _ => .refuse "string_type" "Input should be a valid string"

/-- A floating point number. -/
def double (v : Json) : Checked Double :=
  let other : Checked Double := .refuse "float_type" "Input should be a valid number"
  match v with
  | .float d => .good d
  | .int n =>
    match Double.ofInt n with
    | .infinite _ => other
    | d => .good d
  | .bool b => .good (.ofInt (if b then 1 else 0))
  | .text t => characters t fun t =>
    match double? t with
    | some d => .good d
    | none =>
      .refuse "float_parsing" "Input should be a valid number, unable to parse string as a number"
  | _ => other

/-- The integers that a floating point number may stand for lie strictly between this bound and its
negative. -/
def wordBound : Int := 9223372036854775808

/-- The integer that a floating point number is, within the bounds. -/
def wordOfDouble? (d : Double) : Option Int :=
  d.toInt?.filter fun n => -wordBound < n && n < wordBound

/-- The refusal of an integer with too many digits. -/
def tooLong {α : Type} : Checked α :=
  .refuse "int_parsing_size" "Unable to parse input string as an integer, exceeded maximum size"

/-- An integer. -/
def int : Json → Checked Int
  | .int n => .good n
  | .bool b => .good (if b then 1 else 0)
  | .float d =>
    match d, d.toInt?, wordOfDouble? d with
    | _, _, some n => .good n
    | _, some _, none => tooLong
    | .finite .., none, none =>
      .refuse "int_from_float"
        "Input should be a valid integer, got a number with a fractional part"
    | _, none, none => .refuse "finite_number" "Input should be a finite number"
  | .text t => characters t fun t =>
    match intOfText t with
    | .value n => .good n
    | .none =>
      .refuse "int_parsing" "Input should be a valid integer, unable to parse string as an integer"
    | .tooLong => tooLong
  | _ => .refuse "int_type" "Input should be a valid integer"

/-- A floating point number that is greater than zero. -/
def positive (v : Json) : Checked Double :=
  match double v with
  | .bad ps => .bad ps
  | .good d =>
    if d.isPositive then .good d else .refuse "greater_than" "Input should be greater than 0"

/-- A count of at least one. -/
def count (v : Json) : Checked Nat :=
  match int v with
  | .bad ps => .bad ps
  | .good n =>
    if n < 1 then .refuse "greater_than_equal" "Input should be greater than or equal to 1"
    else .good n.toNat

/-- The spellings of a truth value. -/
def boolWord? (t : Text) : Option Bool :=
  let word := t.lower
  if (["0", "off", "f", "false", "n", "no"] : List Text).contains word then some false
  else if (["1", "on", "t", "true", "y", "yes"] : List Text).contains word then some true
  else none

/-- A truth value. -/
def bool (v : Json) : Checked Bool :=
  let unclear : Checked Bool :=
    .refuse "bool_parsing" "Input should be a valid boolean, unable to interpret input"
  let other : Checked Bool := .refuse "bool_type" "Input should be a valid boolean"
  let number (n : Int) : Checked Bool :=
    if n = 0 then .good false else if n = 1 then .good true else unclear
  match v with
  | .bool b => .good b
  | .text t => characters t fun t =>
    match boolWord? t with
    | some b => .good b
    | none => unclear
  | .int n => if -wordBound ≤ n ∧ n < wordBound then number n else other
  | .float d =>
    match wordOfDouble? d with
    | some n => number n
    | none => other
  | _ => other

/-- A text of at least one code point. -/
def filled (t : Text) : Checked Text := characters t fun t =>
  if t.isEmpty then .refuse "string_too_short" "String should have at least 1 character"
  else .good t

/-- The items of a list of texts from a position on. -/
def textItems (position : Nat) : List Json → Checked (List Text)
  | [] => .good []
  | v :: rest =>
    ((Checked.good List.cons).and
      ((text v).under (Text.ofNat position))).and (textItems (position + 1) rest)

/-- A list of texts. -/
def texts : Json → Checked (List Text)
  | .array items => textItems 0 items
  | _ => .refuse "list_type" "Input should be a valid list"

end Validation

end LogRelay
