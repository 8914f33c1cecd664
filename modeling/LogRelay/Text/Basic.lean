import LogRelay.Pieces

/-!
# Text as code points

A `Text` is a list of code points, surrogates included, because an escape in a log record may stand
for a lone surrogate that no `String` holds.  Lengths, widths and order all count code points.
-/

namespace LogRelay

/-- A number a character can have, lone surrogates included. -/
abbrev CodePoint := Fin 0x110000

/-- A sequence of code points. -/
abbrev Text := List CodePoint

/-- Octets as a file holds them. -/
abbrev Bytes := List UInt8

/-- The code point of a character. -/
def CodePoint.ofChar (c : Char) : CodePoint :=
  ⟨c.val.toNat, by
    have h : UInt32.isValidChar c.val := c.valid
    unfold UInt32.isValidChar Nat.isValidChar at h
    omega⟩

/-- The code point with a number, which wraps beyond the last one. -/
def CodePoint.ofNat (n : Nat) : CodePoint := Fin.ofNat 0x110000 n

/-- Surrogates stand for no character and have no encoding. -/
def CodePoint.isSurrogate (c : CodePoint) : Bool := 0xD800 ≤ c.val && c.val ≤ 0xDFFF

/-- The character with a code point, where there is one. -/
def CodePoint.toChar? (c : CodePoint) : Option Char :=
  if h : c.val.isValidChar then some (Char.ofNatAux c.val h) else none

instance : Coe Char CodePoint := ⟨CodePoint.ofChar⟩

namespace Text

/-- The code points of a string. -/
def ofString (s : String) : Text := s.toList.map CodePoint.ofChar

instance : Coe String Text := ⟨ofString⟩

/-- The string with these code points, unless one of them is a surrogate. -/
def toString? (t : Text) : Option String := (t.mapM CodePoint.toChar?).map String.ofList

/-- A number in decimal digits. -/
def ofNat (n : Nat) : Text := ofString (toString n)

/-- An integer in decimal digits, with a sign if it is negative. -/
def ofInt (n : Int) : Text := if n < 0 then '-' :: ofNat n.natAbs else ofNat n.natAbs

/-- The lower case hexadecimal digit of a number below sixteen. -/
def hexDigit (n : Nat) : CodePoint :=
  if n < 10 then CodePoint.ofNat (48 + n) else CodePoint.ofNat (87 + n)

/-- A number in a fixed count of hexadecimal digits. -/
def hexDigits : Nat → Nat → Text
  | 0, _ => []
  | width + 1, n => hexDigits width (n / 16) ++ [hexDigit (n % 16)]

/-- The parts of a text between the places where a code point stands. -/
abbrev split (sep : CodePoint) (t : Text) : List Text := pieces sep t

/-- Texts one after another with a separator between them. -/
def joinWith (sep : Text) (parts : List Text) : Text := sep.intercalate parts

/-- Whether a text stands somewhere inside another. -/
def occursIn (part : Text) : Text → Bool
  | [] => part.isEmpty
  | c :: t => part.isPrefixOf (c :: t) || occursIn part t

/-- A text with the first place where another text occurs replaced. -/
def replaceFirst (t old new : Text) : Text :=
  match t with
  | [] => if old.isEmpty then new else []
  | c :: rest =>
    if old.isPrefixOf (c :: rest) then new ++ (c :: rest).drop old.length
    else c :: replaceFirst rest old new

/-- A text with a code point replaced by a text wherever it stands. -/
def replaceAll (t : Text) (old : CodePoint) (new : Text) : Text :=
  t.flatMap fun c => if c = old then new else [c]

/-- Fills a text with spaces on the right up to a width. -/
def padRight (width : Nat) (t : Text) : Text :=
  t ++ List.replicate (width - t.length) (' ' : CodePoint)

/-- The order of texts, by the first code point in which they differ. -/
def le : Text → Text → Bool
  | [], _ => true
  | _ :: _, [] => false
  | a :: s, b :: t => if a = b then le s t else a.val < b.val

/-- Texts in ascending order. -/
def sort (ts : List Text) : List Text := ts.mergeSort le

/-- Whether a code point is a decimal digit of ASCII. -/
def isDigit (c : CodePoint) : Bool := 48 ≤ c.val && c.val ≤ 57

/-- The number a run of decimal digits stands for. -/
def digitsValue (t : Text) : Nat := t.foldl (fun n c => 10 * n + (c.val - 48)) 0

end Text

end LogRelay
