import LogRelay.Text.Digit
import LogRelay.Validation
import LogRelay.Yaml.Cursor

/-!
# Numbers of a settings file

The values of scalars that are tagged as numbers.  Underscores group digits, numbers with colons are
to the base of sixty, and the digits may be of any script.  A scalar may carry such a tag without
having the form of a number.
-/

namespace LogRelay.Yaml.Number

/-- White space of ASCII, which may stand around a number. -/
def isPadding (c : CodePoint) : Bool := (9 ≤ c.val && c.val ≤ 13) || c.val == 32

/-- A number in the digits of ASCII, without the white space around it. -/
def plain (t : Text) : Text :=
  let t := (Text.plainDigits t).dropWhile isPadding
  (t.reverse.dropWhile isPadding).reverse

/-! ### Integers -/

/-- How much of a text that is not an integer is shown. -/
def shownLimit : Nat := 200

/-- The failure of a text that is not an integer to some base. -/
def notInteger {α : Type} (base : Nat) (t : Text) : Except Failure α :=
  .error (.badValue ("invalid literal for int() with base " ++ Text.ofNat base ++ ": " ++
    t.quoted.take shownLimit))

/-- The letter that may stand behind a zero before digits to some base. -/
def baseLetter? (base : Nat) : Option CodePoint :=
  if base = 2 then some 'b' else if base = 8 then some 'o' else if base = 16 then some 'x' else none

/-- Digits without a prefix that names their base. -/
def withoutPrefix (base : Nat) (t : Text) : Text :=
  match t with
  | zero :: letter :: rest =>
    if zero = '0' ∧ some (Text.lower [letter]) = (baseLetter? base).map ([·]) then rest else t
  | _ => t

/-- The value of a digit to some base. -/
def digit? (base : Nat) (c : CodePoint) : Option Nat :=
  match Json.hexValue? c with
  | some d => if d < base then some d else none
  | none => none

/-- The integer that some digits stand for, with a sign and space around it.  Too many digits to the
base of ten count before anything that may stand behind them. -/
def integer (base : Nat) (t : Text) : Except Failure Int :=
  let (negative, body) := Validation.signSpan (plain t)
  let body := withoutPrefix base body
  let ds := body.takeWhile fun c => (digit? base c).isSome
  if base = 10 && Json.digitLimit < ds.length then .error (tooManyDigits ds.length)
  else if ds.isEmpty || ds.length < body.length then notInteger base t
  else
    let n : Nat := ds.foldl (fun n c => base * n + (digit? base c).getD 0) 0
    .ok (if negative then -n else n)

/-- A text without the underscores that group its digits. -/
def ungrouped (t : Text) : Text := t.filter (· != ('_' : CodePoint))

/-- The value of a scalar with the tag of integers. -/
def intOf (t : Text) : Except Failure Int :=
  let (negative, body) := Validation.signSpan (ungrouped t)
  let magnitude : Except Failure Int :=
    match body with
    | [] => .error .emptyNumber
    | c :: rest =>
      if c = '0' then
        match rest with
        | [] => .ok 0
        | b :: digits =>
          if b = 'b' then integer 2 digits
          else if b = 'x' then integer 16 digits
          else integer 8 body
      else
        match Text.split ':' body with
        | [_] => integer 10 body
        | parts =>
          match parts.mapM (integer 10) with
          | .error f => .error f
          | .ok values => .ok (values.foldl (fun n d => 60 * n + d) 0)
  match magnitude with
  | .error f => .error f
  | .ok n => .ok (if negative then -n else n)

/-! ### Floating point numbers -/

/-- The floating point number that a text stands for. -/
def float (t : Text) : Except Failure Double :=
  match Validation.decimal? (plain t) with
  | some d => .ok d
  | none => .error (.badValue ("could not convert string to float: " ++ t.quoted))

/-- The value of parts to the base of sixty, the least part first; each sum is rounded.  The power
of sixty must not be too large for a floating point number. -/
def sumSixtieths : (power : Int) → (sum : Double) → List Double → Except Failure Double
  | _, sum, [] => .ok sum
  | power, sum, d :: rest =>
    match Double.ofInt power with
    | .infinite _ => .error (.overflow "int too large to convert to float")
    | scale => sumSixtieths (60 * power) (sum.add (d.mul scale)) rest

/-- The value of a scalar with the tag of floating point numbers. -/
def floatOf (t : Text) : Except Failure Double :=
  match (ungrouped t).lower with
  | [] => .error .emptyNumber
  | whole =>
    let (negative, body) := Validation.signSpan whole
    let magnitude : Except Failure Double :=
      if body = ".inf" then .ok (.infinite false)
      else if body = ".nan" then .ok .nan
      else
        match Text.split ':' body with
        | [_] => float body
        | parts =>
          match parts.mapM float with
          | .error f => .error f
          | .ok values => sumSixtieths 1 (.finite false 0 0) values.reverse
    match magnitude with
    | .error f => .error f
    | .ok d => .ok (if negative then d.neg else d)

/-- Whether a scalar with the tag of floating point numbers is the word for no number at all. -/
def isNoNumber (t : Text) : Bool :=
  (Validation.signSpan (ungrouped t).lower).2 = ".nan"

end LogRelay.Yaml.Number
