import LogRelay.Text.Printable

/-!
# Quoted text

The form of a text inside shown values and error messages: between single quotes, or double quotes
if the text holds a single quote and no double one, with everything unprintable escaped.
-/

namespace LogRelay.Text

/-- One code point inside quotes. -/
def quotedPoint (quote c : CodePoint) : Text :=
  if c = quote ∨ c = '\\' then ['\\', c]
  else if c = '\t' then "\\t"
  else if c = '\n' then "\\n"
  else if c = '\r' then "\\r"
  else if isPrintable c then [c]
  else if c.val < 0x100 then "\\x" ++ hexDigits 2 c.val
  else if c.val < 0x10000 then "\\u" ++ hexDigits 4 c.val
  else "\\U" ++ hexDigits 8 c.val

/-- The quote a text is put between. -/
def quoteFor (t : Text) : CodePoint :=
  if t.contains ('\'' : CodePoint) && !(t.contains ('"' : CodePoint)) then '"' else '\''

/-- A text between quotes. -/
def quoted (t : Text) : Text :=
  let q := quoteFor t
  q :: (t.flatMap (quotedPoint q) ++ [q])

/-- One octet inside quotes. -/
def quotedOctet (quote : CodePoint) (b : UInt8) : Text :=
  let c := CodePoint.ofNat b.toNat
  if c = quote ∨ c = '\\' then ['\\', c]
  else if c = '\t' then "\\t"
  else if c = '\n' then "\\n"
  else if c = '\r' then "\\r"
  else if 32 ≤ b.toNat ∧ b.toNat < 127 then [c]
  else "\\x" ++ hexDigits 2 b.toNat

/-- Octets between quotes, marked as octets. -/
def quotedOctets (bytes : Bytes) : Text :=
  let q := quoteFor (bytes.map fun b => CodePoint.ofNat b.toNat)
  'b' :: q :: (bytes.flatMap (quotedOctet q) ++ [q])

end LogRelay.Text
