import LogRelay.Failure

/-!
# Files that are read in portions

A file that is read as a text comes in portions of some code points each, and is decoded from blocks
of octets that are fetched as they are needed.  What is wrong with a file therefore shows only when
the portion is asked for, and positions count from the start of the block, with what was held back
of the block before it.

A carriage return, alone or before a line feed, is read as a line feed.  At the end of a block it is
held back until it is known what follows.
-/

namespace LogRelay

/-- The portions of a text. -/
inductive Feed where
  /-- There are no more. -/
  | finished
  | portion (t : Text) (more : Feed)
  /-- The next portion cannot be read. -/
  | broken (f : Failure)

namespace Feed

/-- How many code points are still to come, as far as they can be read. -/
def length : Feed → Nat
  | finished | broken _ => 0
  | portion t more => t.length + more.length

/-- How many code points a portion has, the last one apart. -/
def portionSize : Nat := 4096

/-- How many octets a block has at least. -/
def blockSize : Nat := 8192

/-- A file that is being read. -/
structure Reading where
  /-- The octets that have not been fetched. -/
  octets : Bytes
  /-- The octets of a sequence that was cut off by the end of a block. -/
  held : Bytes := []
  /-- Whether a carriage return has been held back. -/
  holdsReturn : Bool := false
  /-- The text that has been decoded and not been handed out. -/
  ready : Text := []
  /-- How many octets the code points of the last block took on average. -/
  width : Double := .finite false 0 0

namespace Reading

/-- How many octets are fetched if some code points are wanted. -/
def fetchSize (s : Reading) (wanted : Nat) : Nat :=
  let guess : Nat :=
    match (s.width.mul (.ofInt wanted)).ratio? with
    | some (num, den) => (num / den).toNat
    | none => 0
  max blockSize guess

/-- Decodes octets, of which the last may be held back.  So are two octets that could only begin a
surrogate. -/
def decode (isLast : Bool) (octets : Bytes) : Except Utf8.DecodeError (Text × Bytes) :=
  if isLast then (Utf8.decodeStrict octets).map fun t => (t, [])
  else
    match Utf8.decodePart octets with
    | .ok (t, n) => .ok (t, octets.drop (octets.length - n))
    | .error e =>
      let held := octets.drop e.position
      if e.octet = 0xED ∧ held.length = 2 ∧ held.all (fun b => 0xA0 ≤ b) then
        (Utf8.decodeStrict (octets.take e.position)).map fun t => (t, held)
      else .error e

/-- Fetches and decodes a block; true if something came of it. -/
def fetch (s : Reading) (wanted : Nat) : Except Utf8.DecodeError (Bool × Reading) :=
  let size := s.fetchSize wanted
  let block := s.octets.take size
  let isLast := block.isEmpty
  match decode isLast (s.held ++ block) with
  | .error e => .error e
  | .ok (t, held) =>
    let t : Text := if s.holdsReturn && (isLast || !t.isEmpty) then '\r' :: t else t
    let stillHeld := s.holdsReturn && !isLast && t.isEmpty
    let holds := !isLast && t.getLast? == some ('\r' : CodePoint)
    let t := Text.foldReturns (if holds then t.dropLast else t)
    .ok (!(isLast && t.isEmpty), {
      octets := s.octets.drop size, held, holdsReturn := holds || stillHeld, ready := s.ready ++ t
      width := if t.isEmpty then .finite false 0 0 else .ofRatio false block.length t.length })

/-- Hands out a number of code points, or fewer at the end of the file; `got` has been handed
out. -/
def read : (fuel : Nat) → (wanted : Nat) → (got : Text) → Reading →
    Except Utf8.DecodeError (Text × Reading)
  | 0, _, got, s => .ok (got, s)
  | fuel + 1, wanted, got, s =>
    let taken := s.ready.take wanted
    let got := got ++ taken
    let s := { s with ready := s.ready.drop wanted }
    let wanted := wanted - taken.length
    if wanted = 0 then .ok (got, s)
    else
      match s.fetch wanted with
      | .error e => .error e
      | .ok (true, s) => read fuel wanted got s
      | .ok (false, s) => .ok (got, s)

end Reading

/-- The portions of a file that is being read; no two of them come of the same octet. -/
def ofReading : (fuel : Nat) → Reading → Feed
  | 0, _ => finished
  | fuel + 1, s =>
    match s.read (s.octets.length + 3) portionSize [] with
    | .error e => broken (.undecodable e)
    | .ok ([], _) => finished
    | .ok (t, s) => portion t (ofReading fuel s)

/-- The portions of a file. -/
def ofOctets (bytes : Bytes) : Feed := ofReading (bytes.length + 2) { octets := bytes }

end Feed

end LogRelay
