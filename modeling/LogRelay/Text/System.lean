import LogRelay.Text.Utf8

/-!
# Texts of the operating system

Variables and paths are octets to the operating system.  A surrogate between U+DC80 and U+DCFF
stands for an octet that is not part of any character, so that all octets can be read as a text and
written back.  `settled` is what a text has become after it was handed over and read back.
-/

namespace LogRelay.Text

/-- A surrogate that stands for an octet. -/
def isOctet (c : CodePoint) : Bool := 0xDC80 ≤ c.val && c.val ≤ 0xDCFF

/-- The surrogate that stands for an octet. -/
def octetPoint (b : UInt8) : CodePoint := CodePoint.ofNat (0xDC00 + b.toNat)

/-- The octets of a text, of which some may be given by surrogates. -/
def systemOctets (t : Text) : Bytes :=
  t.flatMap fun c => if isOctet c then [(c.val - 0xDC00).toUInt8] else Utf8.encodePoint c

/-- Reads octets: `pending` is the open sequence, `held` its octets in reverse, and `read` the text
so far in reverse. -/
def ofOctetsFrom (pending : Option Utf8.Partial) (held : Bytes) (read : Text) : Bytes → Text
  | [] => (held.map octetPoint ++ read).reverse
  | b :: rest =>
    let begin (read : Text) : Text :=
      match Utf8.start b with
      | .complete c => ofOctetsFrom none [] (c :: read) rest
      | .opened p => ofOctetsFrom (some p) [b] read rest
      | .invalid => ofOctetsFrom none [] (octetPoint b :: read) rest
    match pending with
    | none => begin read
    | some p =>
      if p.low ≤ b ∧ b ≤ p.high then
        let value := 64 * p.value + (b.toNat - 0x80)
        if p.missing ≤ 1 then ofOctetsFrom none [] (CodePoint.ofNat value :: read) rest
        else ofOctetsFrom (some ⟨value, p.missing - 1, 0x80, 0xBF, p.taken + 1⟩)
          (b :: held) read rest
      else begin (held.map octetPoint ++ read)

/-- The text that octets of the system are read as. -/
def ofSystemOctets (bytes : Bytes) : Text := ofOctetsFrom none [] [] bytes

/-- A text after it was handed over to the system and read back. -/
def settled (t : Text) : Text := if t.any isOctet then ofSystemOctets (systemOctets t) else t

/-- The first run of surrogates that starts with one that stands for no octet. -/
def firstUnstorable (t : Text) : Option Utf8.EncodeError :=
  match t.findIdx? fun c => c.isSurrogate && !isOctet c with
  | none => none
  | some i => some ⟨i, (t.drop i).takeWhile CodePoint.isSurrogate⟩

end LogRelay.Text
