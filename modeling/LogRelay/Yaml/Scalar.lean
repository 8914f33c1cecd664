import LogRelay.Yaml.Cursor

/-!
# Scalars of a settings file

How the text of a scalar is read, by its style: literal and folded blocks, single and double quotes,
and plain.  Line breaks inside all but literal blocks are folded into spaces.

Where a text is gathered bit by bit, `read` holds what has been read of it, in reverse.
-/

namespace LogRelay.Yaml.Scan

/-! ### Blocks -/

/-- What becomes of the line breaks at the end of a block. -/
inductive Chomping where
  | strip
  | clip
  | keep
deriving DecidableEq

/-- The indicator of the chomping, if one is there. -/
def chomping? : Scan (Option Chomping) := do
  let x ← peek
  if isOneOf "+" x then
    forward
    return some .keep
  else if isOneOf "-" x then
    forward
    return some .strip
  else return none

/-- How far a block is indented, if a digit for it is there; zero is refused. -/
def increment? : Scan (Option Nat) := do
  match ← peek with
  | none => return none
  | some x =>
    if Text.isDigit x then
      require (x ≠ '0')
      forward
      return some (x.val - 48)
    else return none

/-- The header of a block: the chomping and how far the block is indented, in either order. -/
def blockHeader : Scan (Chomping × Option Nat) := do
  let before ← chomping?
  let increment ← increment?
  let chomping ← if before.isNone && increment.isSome then chomping? else pure before
  require (isSpaceOrEnd (← peek))
  return (chomping.getD .clip, increment)

/-- The empty lines before the first line of a block, and the widest indentation seen. -/
def blockIndentation : (fuel : Nat) → (read : Text) → (widest : Nat) → Scan (Text × Nat)
  | 0, _, _ => refuse
  | fuel + 1, read, widest => do
    if isOneOf " " (← peek) then
      forward
      blockIndentation fuel read (max widest (← column))
    else
      match ← lineBreak with
      | some b => blockIndentation fuel (b :: read) widest
      | none => return (read.reverse, widest)

/-- Passes over spaces up to an indentation. -/
def skipIndent (indent : Nat) : (fuel : Nat) → Scan Unit
  | 0 => refuse
  | fuel + 1 => do
    if (← column) < indent then
      if isOneOf " " (← peek) then
        forward
        skipIndent indent fuel

/-- The empty lines before a line of a block. -/
def blockBreaks (indent : Nat) : (fuel : Nat) → (read : Text) → Scan Text
  | 0, _ => refuse
  | fuel + 1, read => do
    skipIndent indent (← bound)
    match ← lineBreak with
    | some b => blockBreaks indent fuel (b :: read)
    | none => return read.reverse

/-- What stands between two lines of a block: the break itself, or in a folded block a space if both
lines begin without a blank and no empty line is between them. -/
def blockJoint (folded leads follows : Bool) (lineBreak breaks : Text) : Text :=
  if folded && lineBreak = "\n" && leads && follows then if breaks.isEmpty then " " else []
  else lineBreak

/-- The lines of a block: its text, the last line break and the empty lines behind it. -/
def blockLines (folded : Bool) (indent : Nat) :
    (fuel : Nat) → (read breaks : Text) → Scan (Text × Text × Text)
  | 0, _, _ => refuse
  | fuel + 1, read, breaks => do
    let leads := !isOneOf " \t" (← peek)
    let line ← spanWhile fun x => !isBreak x
    let read := (breaks ++ line).reverse ++ read
    let lineBreak : Text := (← Scan.lineBreak).toList
    let breaks ← blockBreaks indent (← bound) []
    let next ← peek
    if (← column) = indent && next.isSome then
      let joint := blockJoint folded leads (!isOneOf " \t" next) lineBreak breaks
      blockLines folded indent fuel (joint.reverse ++ read) breaks
    else return (read.reverse, lineBreak, breaks)

/-- A literal or folded block behind its indicator, inside a block of some indentation. -/
def blockScalar (folded : Bool) (outer : Int) : Scan Text := do
  let (chomping, increment) ← blockHeader
  skipIgnoredLine
  let least := max (outer + 1).toNat 1
  let (indent, breaks) ← match increment with
    | some i => do
      let indent := least + i - 1
      pure (indent, ← blockBreaks indent (← bound) [])
    | none => do
      let (breaks, widest) ← blockIndentation (← bound) [] 0
      pure (max least widest, breaks)
  let isEmpty := (← column) ≠ indent || (← peek).isNone
  let (text, lineBreak, breaks) ←
    if isEmpty then pure ([], [], breaks) else blockLines folded indent (← bound) [] breaks
  match chomping with
  | .strip => return text
  | .clip => return text ++ lineBreak
  | .keep => return text ++ lineBreak ++ breaks

/-! ### Quotes -/

/-- The code point of a one-letter escape in double quotes. -/
def escape? (c : CodePoint) : Option CodePoint :=
  let table : List (Char × Nat) := [
    ('0', 0), ('a', 7), ('b', 8), ('t', 9), ('\t', 9), ('n', 10), ('v', 11), ('f', 12), ('r', 13),
    ('e', 27), (' ', 32), ('"', 34), ('\\', 92), ('/', 47), ('N', 0x85), ('_', 0xA0), ('L', 0x2028),
    ('P', 0x2029)]
  (table.find? fun (k, _) => (k : CodePoint) = c).map fun (_, n) => CodePoint.ofNat n

/-- How many digits an escape by number has. -/
def escapeWidth? (c : CodePoint) : Option Nat :=
  if c = 'x' then some 2 else if c = 'u' then some 4 else if c = 'U' then some 8 else none

/-- The number in the hexadecimal digits from a place on; `value` is that of those before them. -/
def hexValueFrom (place : Nat) : (count : Nat) → (value : Nat) → Scan Nat
  | 0, value => return value
  | count + 1, value => do
    match (← peek place).bind Json.hexValue? with
    | some d => hexValueFrom (place + 1) count (16 * value + d)
    | none => refuse

/-- The code point with a number; a number that no code point has is a failure of its own, and so is
one of 32 bits. -/
def codePoint (n : Nat) : Except Failure CodePoint :=
  if 0x7FFFFFFF < n then .error (.overflow "Python int too large to convert to C int")
  else if 0x10FFFF < n then .error (.badValue "chr() arg not in range(0x110000)")
  else .ok (CodePoint.ofNat n)

/-- The code point of an escape by number. -/
def numericEscape (width : Nat) : Scan CodePoint := do
  let c ← codePoint (← hexValueFrom 0 width 0)
  forward width
  return c

/-- The empty lines inside quotes; a mark between documents must not stand there. -/
def quotedBreaks : (fuel : Nat) → (read : Text) → Scan Text
  | 0, _ => refuse
  | fuel + 1, read => do
    require (!(← atDocumentMark))
    discard (spanWhile isBlank)
    match ← lineBreak with
    | some b => quotedBreaks fuel (b :: read)
    | none => return read.reverse

/-- What line breaks inside a scalar are folded into. -/
def foldBreaks (first : CodePoint) (more : Text) : Text :=
  if first.val ≠ 10 then first :: more else if more.isEmpty then " " else more

/-- What an escape behind its backslash stands for: a code point, or empty lines behind a line
break. -/
def escaped : Scan Text := do
  match ← peek with
  | none => refuse
  | some x =>
    match escape? x, escapeWidth? x with
    | some c, _ =>
      forward
      return [c]
    | none, some width =>
      forward
      return [← numericEscape width]
    | none, none =>
      match ← lineBreak with
      | none => refuse
      | some _ => quotedBreaks (← bound) []

/-- What a gap inside quotes stands for. -/
def quotedGap : Scan Text := do
  let blanks ← spanWhile isBlank
  match ← lineBreak with
  | none => return blanks
  | some b => return foldBreaks b (← quotedBreaks (← bound) [])

/-- A quoted scalar behind its quote. -/
def quotedScalar (double : Bool) : (fuel : Nat) → (read : Text) → Scan Text
  | 0, _ => refuse
  | fuel + 1, read => do
    match ← peek with
    | none => refuse
    | some x =>
      if x = '\'' && !double then
        if isOneOf "'" (← peek 1) then
          forward 2
          quotedScalar double fuel (x :: read)
        else
          forward
          return read.reverse
      else if x = '"' && double then
        forward
        return read.reverse
      else if x = '\\' && double then
        forward
        quotedScalar double fuel ((← escaped).reverse ++ read)
      else if isBlank x || isBreak x then
        quotedScalar double fuel ((← quotedGap).reverse ++ read)
      else
        forward
        quotedScalar double fuel (x :: read)

/-! ### Plain scalars -/

/-- Whether a plain scalar ends at the cursor; inside brackets more code points end it. -/
def endsPlain (inFlow : Bool) : Scan Bool := do
  let x ← peek
  if isGap x then return true
  else if isOneOf ":" x then
    let next ← peek 1
    return isGap next || (inFlow && isOneOf ",[]\x7b\x7d" next)
  else return inFlow && isOneOf ",?[]\x7b\x7d" x

/-- The part of a plain scalar up to the next gap or end. -/
def plainPart (inFlow : Bool) : (fuel : Nat) → (read : Text) → Scan Text
  | 0, _ => refuse
  | fuel + 1, read => do
    if ← endsPlain inFlow then return read.reverse
    else
      let x ← peek
      forward
      plainPart inFlow fuel (x.toList ++ read)

/-- The line breaks behind the first one in a gap of a plain scalar; none if a mark between
documents stands there. -/
def plainBreaks : (fuel : Nat) → (read : Text) → Scan (Option Text)
  | 0, _ => refuse
  | fuel + 1, read => do
    if isOneOf " " (← peek) then
      forward
      plainBreaks fuel read
    else
      match ← lineBreak with
      | none => return some read.reverse
      | some b => if ← atDocumentMark then return none else plainBreaks fuel (b :: read)

/-- A gap inside a plain scalar: the text it stands for and whether it breaks a line.  An empty text
ends the scalar. -/
def plainGap : Scan (Text × Bool) := do
  let blanks ← spanWhile (· == (' ' : CodePoint))
  match ← lineBreak with
  | none => return (blanks, false)
  | some b =>
    if ← atDocumentMark then return ([], true)
    else
      match ← plainBreaks (← bound) [] with
      | none => return ([], true)
      | some breaks => return (foldBreaks b breaks, true)

/-- A plain scalar inside a block of some indentation: its text, and whether a line break stands
right before the place behind it.  The gap behind what has been read counts only if more follows. -/
def plainScalar (inFlow : Bool) (outer : Int) :
    (fuel : Nat) → (read gap : Text) → (broken : Bool) → Scan (Text × Bool)
  | 0, _, _, _ => refuse
  | fuel + 1, read, gap, broken => do
    if isOneOf "#" (← peek) then return (read.reverse, broken)
    else
      let part ← plainPart inFlow (← bound) []
      if part.isEmpty then return (read.reverse, broken)
      else
        let read := (gap ++ part).reverse ++ read
        let (gap, broken) ← plainGap
        if gap.isEmpty then return (read.reverse, broken)
        else if isOneOf "#" (← peek) || (!inFlow && ((← column) : Int) ≤ outer) then
          return (read.reverse, broken)
        else plainScalar inFlow outer fuel read gap broken

end LogRelay.Yaml.Scan
