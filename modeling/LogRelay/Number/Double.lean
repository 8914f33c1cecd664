/-!
# Binary floating point numbers

A `Double` is a number of the 64-bit binary format, kept as an integer mantissa and a power of two,
so that every operation is exact integer arithmetic followed by one rounding (`ofRatio`): to
nearest, a half going to the even mantissa.
-/

namespace LogRelay

/-- A 64-bit binary floating point number. -/
inductive Double where
  /-- The number `± mantissa * 2 ^ exponent`. -/
  | finite (negative : Bool) (mantissa : Nat) (exponent : Int)
  | infinite (negative : Bool)
  | nan
deriving DecidableEq

namespace Double

/-- The least exponent of a mantissa. -/
def minExponent : Int := -1074

/-- The greatest exponent of a mantissa. -/
def maxExponent : Int := 971

/-- A power of two or of ten with a signed exponent, as numerator and denominator. -/
def powerRatio (base : Nat) (e : Int) : Nat × Nat :=
  if e < 0 then (1, Nat.pow base e.natAbs) else (Nat.pow base e.natAbs, 1)

/-- A quotient to the nearest integer, a half to the even one. -/
def roundHalfEven (num den : Nat) : Nat :=
  let q := num / den
  let r := num % den
  if 2 * r < den then q
  else if den < 2 * r then q + 1
  else if q % 2 = 0 then q else q + 1

/-- The exponent for which a positive quotient has a mantissa of 53 bits, or the least one. -/
def exponentOf (num den : Nat) : Int :=
  let guess : Int := (Nat.log2 num : Int) - (Nat.log2 den : Int) - 52
  let (p, q) := powerRatio 2 guess
  -- the quotient of the logarithms is right or one too large
  let e := if num * q < Nat.pow 2 52 * (den * p) then guess - 1 else guess
  if e < minExponent then minExponent else e

/-- The number nearest to a quotient. -/
def ofRatio (negative : Bool) (num den : Nat) : Double :=
  if num = 0 then .finite negative 0 0
  else
    let e := exponentOf num den
    let (p, q) := powerRatio 2 e
    let m := roundHalfEven (num * q) (den * p)
    let (m, e) := if m = Nat.pow 2 53 then (Nat.pow 2 52, e + 1) else (m, e)
    if maxExponent < e then .infinite negative else .finite negative m e

/-- The number nearest to `± digits * 10 ^ exponent`; the bounds on the logarithm keep the powers
small when the answer is zero or infinite anyway. -/
def ofDecimal (negative : Bool) (digits : Nat) (exponent : Int) : Double :=
  let atLeast : Int := digits.log2 * 3 / 10
  let below : Int := (digits.log2 + 1) * 31 / 100 + 1
  if digits = 0 then .finite negative 0 0
  else if 320 < atLeast + exponent then .infinite negative
  else if below + exponent < -330 then .finite negative 0 0
  else
    let (p, q) := powerRatio 10 exponent
    ofRatio negative (digits * p) q

/-- The number nearest to an integer. -/
def ofInt (n : Int) : Double := ofRatio (n < 0) n.natAbs 1

/-- The value of a finite number as a signed numerator and a denominator. -/
def ratio? : Double → Option (Int × Nat)
  | .finite negative m e =>
    let (p, q) := powerRatio 2 e
    some (if negative then -(m * p : Nat) else (m * p : Nat), q)
  | _ => none

/-- Whether the number is a zero of either sign. -/
def isZero : Double → Bool
  | .finite _ m _ => m == 0
  | _ => false

/-- The integer a finite number is equal to, if there is one. -/
def toInt? (d : Double) : Option Int :=
  match d.ratio? with
  | some (num, den) => if num % den = 0 then some (num / den) else none
  | none => none

/-- Whether the number is greater than zero. -/
def isPositive : Double → Bool
  | .finite negative m _ => !negative && m != 0
  | .infinite negative => !negative
  | .nan => false

/-- The number with the other sign. -/
def neg : Double → Double
  | .finite negative m e => .finite (!negative) m e
  | .infinite negative => .infinite (!negative)
  | .nan => .nan

/-- The nearest number to the sum; a zero sum is negative only if both parts are. -/
def add : Double → Double → Double
  | .nan, _ | _, .nan => .nan
  | .infinite s, .infinite t => if s = t then .infinite s else .nan
  | .infinite s, _ | _, .infinite s => .infinite s
  | .finite s m e, .finite t n f =>
    let low := min e f
    let a : Int := (m * Nat.pow 2 (e - low).toNat : Nat)
    let b : Int := (n * Nat.pow 2 (f - low).toNat : Nat)
    let sum := (if s then -a else a) + (if t then -b else b)
    if sum = 0 then .finite (s && t) 0 0
    else
      let (p, q) := powerRatio 2 low
      ofRatio (sum < 0) (sum.natAbs * p) q

/-- The nearest number to the difference. -/
def sub (x y : Double) : Double := x.add y.neg

/-- The nearest number to the product. -/
def mul : Double → Double → Double
  | .nan, _ | _, .nan => .nan
  | .infinite s, .infinite t => .infinite (s != t)
  | .infinite s, .finite t m _ | .finite t m _, .infinite s =>
    if m = 0 then .nan else .infinite (s != t)
  | .finite s m e, .finite t n f =>
    let (p, q) := powerRatio 2 (e + f)
    ofRatio (s != t) (m * n * p) q

end Double

end LogRelay
