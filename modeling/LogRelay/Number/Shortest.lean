import LogRelay.Number.Double
import LogRelay.Text.Basic

/-!
# The shortest decimal that reads back

`Double.shortest` finds the fewest decimal digits that stand for a number, and of those the nearest
to it.  `Double.text` lays them out: positionally while the decimal exponent is at least -4 and
below 16, in scientific form otherwise.
-/

namespace LogRelay

namespace Double

/-- A decimal number `digits * 10 ^ exponent`. -/
structure Decimal where
  digits : Nat
  exponent : Int

/-- The count of decimal digits of a number. -/
def digitCount (n : Nat) : Nat := (Nat.toDigits 10 n).length

/-- The decimal exponent of the first digit of a positive quotient. -/
def leadingExponent (num den : Nat) : Int :=
  if den ≤ num then (digitCount (num / den) : Int) - 1
  else
    -- the least power of ten that lifts the quotient to one or more
    let guess := digitCount (den / num) - 1
    if den ≤ num * Nat.pow 10 guess then -(guess : Int) else -(guess + 1 : Int)

/-- The decimal of some count of digits nearest to a positive quotient, among its two neighbours on
that grid that read back as `target`. -/
def nearestOfLength (target : Double) (num den : Nat) (lead : Int) (count : Nat) : Option Decimal :=
  let exponent := lead - (count : Int) + 1
  let (p, q) := powerRatio 10 exponent
  let below := num * q / (den * p)
  let rest := num * q % (den * p)
  let readsBack (n : Nat) : Bool := ofRatio false (n * p) q == target
  let nearBelow := 2 * rest ≤ den * p
  let first := if nearBelow then below else below + 1
  let second := if nearBelow then below + 1 else below
  if readsBack first then some ⟨first, exponent⟩
  else if readsBack second then some ⟨second, exponent⟩
  else none

/-- The shortest decimal that reads back as a positive number `mantissa * 2 ^ exponent`. -/
def shortest (mantissa : Nat) (exponent : Int) : Decimal :=
  let (p, q) := powerRatio 2 exponent
  let num := mantissa * p
  let target := Double.finite false mantissa exponent
  let lead := leadingExponent num q
  match (List.range 17).findSome? fun n => nearestOfLength target num q lead (n + 1) with
  | some d => d
  | none => ⟨num / q, 0⟩

/-- Digits without the zeros at their end. -/
def trimZeros (ds : Text) : Text :=
  (ds.reverse.dropWhile (· == ('0' : CodePoint))).reverse

/-- The digits of a positive decimal with the decimal exponent of the first of them. -/
def layout (ds : Text) (lead : Int) : Text :=
  if -4 ≤ lead ∧ lead < 16 then
    if lead < 0 then "0." ++ List.replicate (lead.natAbs - 1) ('0' : CodePoint) ++ ds
    else
      let whole := lead.natAbs + 1
      if ds.length ≤ whole then ds ++ List.replicate (whole - ds.length) ('0' : CodePoint) ++ ".0"
      else ds.take whole ++ "." ++ ds.drop whole
  else
    let point : Text := if ds.length ≤ 1 then [] else '.' :: ds.drop 1
    let power := Text.ofNat lead.natAbs
    let power : Text := if power.length < 2 then '0' :: power else power
    ds.take 1 ++ point ++ "e" ++ (if lead < 0 then "-" else "+" : Text) ++ power

/-- The text of a number without its sign. -/
def magnitudeText (mantissa : Nat) (exponent : Int) : Text :=
  if mantissa = 0 then "0.0"
  else
    let d := shortest mantissa exponent
    let ds := Text.ofNat d.digits
    layout (trimZeros ds) (d.exponent + ds.length - 1)

/-- The shortest text of a number. -/
def text : Double → Text
  | .finite negative m e => if negative then '-' :: magnitudeText m e else magnitudeText m e
  | .infinite negative => if negative then "-inf" else "inf"
  | .nan => "nan"

end Double

end LogRelay
