import LogRelay.Text.Basic

/-!
# UTF-8

The decoder is a machine that takes one octet at a time and keeps the sequence that is still open,
so that decoding can be cut between any two octets.  `decode` puts one U+FFFD for each maximal part
of an ill-formed sequence, `decodeStrict` stops at the first one, and `encode` refuses surrogates.
-/

namespace LogRelay.Utf8

/-- A well-formed beginning of a sequence. -/
structure Partial where
  /-- The bits read so far. -/
  value : Nat
  /-- How many octets are still to come. -/
  missing : Nat
  /-- The least octet that may come next. -/
  low : UInt8
  /-- The greatest octet that may come next. -/
  high : UInt8
  /-- How many octets have been read. -/
  taken : Nat
deriving DecidableEq

/-- What a first octet starts. -/
inductive Start where
  | complete (c : CodePoint)
  | opened (p : Partial)
  | invalid

/-- The sequence a first octet starts; the bounds on the second one exclude overlong forms,
surrogates and numbers that are too large. -/
def start (b : UInt8) : Start :=
  let n := b.toNat
  if n < 0x80 then .complete (CodePoint.ofNat n)
  else if n < 0xC2 then .invalid
  else if n < 0xE0 then .opened ⟨n - 0xC0, 1, 0x80, 0xBF, 1⟩
  else if n = 0xE0 then .opened ⟨0, 2, 0xA0, 0xBF, 1⟩
  else if n = 0xED then .opened ⟨0xD, 2, 0x80, 0x9F, 1⟩
  else if n < 0xF0 then .opened ⟨n - 0xE0, 2, 0x80, 0xBF, 1⟩
  else if n = 0xF0 then .opened ⟨0, 3, 0x90, 0xBF, 1⟩
  else if n < 0xF4 then .opened ⟨n - 0xF0, 3, 0x80, 0xBF, 1⟩
  else if n = 0xF4 then .opened ⟨4, 3, 0x80, 0x8F, 1⟩
  else .invalid

/-- The decoder between two octets. -/
structure Decoder where
  /-- What has been decoded, last code point first. -/
  decoded : Text
  /-- The sequence that is still open. -/
  pending : Option Partial

/-- The code point that stands for what cannot be decoded. -/
def replacement : CodePoint := CodePoint.ofNat 0xFFFD

/-- Reads an octet that begins a sequence. -/
def Decoder.begin (decoded : Text) (b : UInt8) : Decoder :=
  match start b with
  | .complete c => ⟨c :: decoded, none⟩
  | .opened p => ⟨decoded, some p⟩
  | .invalid => ⟨replacement :: decoded, none⟩

/-- Reads one octet. -/
def Decoder.step (d : Decoder) (b : UInt8) : Decoder :=
  match d.pending with
  | none => .begin d.decoded b
  | some p =>
    if p.low ≤ b ∧ b ≤ p.high then
      let value := 64 * p.value + (b.toNat - 0x80)
      if p.missing ≤ 1 then ⟨CodePoint.ofNat value :: d.decoded, none⟩
      else ⟨d.decoded, some ⟨value, p.missing - 1, 0x80, 0xBF, p.taken + 1⟩⟩
    else .begin (replacement :: d.decoded) b

/-- The text decoded when no octet is left. -/
def Decoder.finish (d : Decoder) : Text :=
  match d.pending with
  | none => d.decoded.reverse
  | some _ => (replacement :: d.decoded).reverse

/-- Decodes octets, with a replacement for each maximal part that is ill-formed. -/
def decode (bytes : Bytes) : Text := (bytes.foldl Decoder.step ⟨[], none⟩).finish

/-! ### Strict decoding -/

/-- Why octets cannot be decoded. -/
inductive Defect where
  | invalidStart
  | invalidContinuation
  | unexpectedEnd

/-- The first ill-formed part of some octets. -/
structure DecodeError where
  defect : Defect
  /-- Where the part begins. -/
  position : Nat
  /-- How many octets it has. -/
  length : Nat
  /-- Its first octet. -/
  octet : UInt8

/-- The wording of a defect. -/
def Defect.text : Defect → Text
  | .invalidStart => "invalid start byte"
  | .invalidContinuation => "invalid continuation byte"
  | .unexpectedEnd => "unexpected end of data"

/-- The wording of a decoding error: a part of one octet is named by its value. -/
def DecodeError.message (e : DecodeError) : Text :=
  (if e.length = 1 then
    "'utf-8' codec can't decode byte 0x" ++ Text.hexDigits 2 e.octet.toNat ++ " in position " ++
      Text.ofNat e.position
  else
    "'utf-8' codec can't decode bytes in position " ++ Text.ofNat e.position ++ "-" ++
      Text.ofNat (e.position + e.length - 1)) ++ ": " ++ e.defect.text

/-- Decodes strictly from a position: `first` and `pending` are the open sequence.  The count is
that of the octets of a sequence left open at the end. -/
def decodePartFrom (position : Nat) (first : UInt8) (decoded : Text) (pending : Option Partial) :
    Bytes → Except DecodeError (Text × Nat)
  | [] => .ok (decoded.reverse, (pending.map (·.taken)).getD 0)
  | b :: rest =>
    match pending with
    | none =>
      match start b with
      | .complete c => decodePartFrom (position + 1) 0 (c :: decoded) none rest
      | .opened p => decodePartFrom (position + 1) b decoded (some p) rest
      | .invalid => .error ⟨.invalidStart, position, 1, b⟩
    | some p =>
      if p.low ≤ b ∧ b ≤ p.high then
        let value := 64 * p.value + (b.toNat - 0x80)
        if p.missing ≤ 1 then
          decodePartFrom (position + 1) 0 (CodePoint.ofNat value :: decoded) none rest
        else
          decodePartFrom (position + 1) first decoded
            (some ⟨value, p.missing - 1, 0x80, 0xBF, p.taken + 1⟩) rest
      else .error ⟨.invalidContinuation, position - p.taken, p.taken, first⟩

/-- Decodes octets behind which more may come: a sequence may be left open at the end, and the count
of its octets is told. -/
def decodePart (bytes : Bytes) : Except DecodeError (Text × Nat) := decodePartFrom 0 0 [] none bytes

/-- Decodes octets that must be well-formed throughout. -/
def decodeStrict (bytes : Bytes) : Except DecodeError Text :=
  match decodePart bytes with
  | .error e => .error e
  | .ok (t, 0) => .ok t
  | .ok (_, n) =>
    let start := bytes.length - n
    .error ⟨.unexpectedEnd, start, n, (bytes.drop start).headD 0⟩

/-! ### Encoding -/

/-- A run of surrogates, which no octets stand for. -/
structure EncodeError where
  /-- Where the run begins. -/
  position : Nat
  /-- The code points of the run. -/
  run : Text

/-- The wording of an encoding error: a run of one is named by its value. -/
def EncodeError.message (e : EncodeError) : Text :=
  match e.run with
  | [c] =>
    "'utf-8' codec can't encode character '\\u" ++ Text.hexDigits 4 c.val ++ "' in position " ++
      Text.ofNat e.position ++ ": surrogates not allowed"
  | run =>
    "'utf-8' codec can't encode characters in position " ++ Text.ofNat e.position ++ "-" ++
      Text.ofNat (e.position + run.length - 1) ++ ": surrogates not allowed"

/-- The octets of a code point. -/
def encodePoint (c : CodePoint) : Bytes :=
  let n := c.val
  if n < 0x80 then [n.toUInt8]
  else if n < 0x800 then [(0xC0 + n / 64).toUInt8, (0x80 + n % 64).toUInt8]
  else if n < 0x10000 then
    [(0xE0 + n / 4096).toUInt8, (0x80 + n / 64 % 64).toUInt8, (0x80 + n % 64).toUInt8]
  else
    [(0xF0 + n / 262144).toUInt8, (0x80 + n / 4096 % 64).toUInt8, (0x80 + n / 64 % 64).toUInt8,
      (0x80 + n % 64).toUInt8]

/-- The first run of surrogates in a text. -/
def firstSurrogates (t : Text) : Option EncodeError :=
  match t.findIdx? CodePoint.isSurrogate with
  | none => none
  | some i => some ⟨i, (t.drop i).takeWhile CodePoint.isSurrogate⟩

/-- The octets of a text, which must not hold surrogates. -/
def encode (t : Text) : Except EncodeError Bytes :=
  match firstSurrogates t with
  | some e => .error e
  | none => .ok (t.flatMap encodePoint)

end LogRelay.Utf8
