import LogRelay.Disk.Feed
import LogRelay.Json.Parser

/-!
# A place in a settings file

Settings files are YAML.  A cursor is a place in one, with line and column, on which the layout
rules depend.  A file is read in portions (`Feed`): `Cursor.rest` is what has been fetched, and
whoever looks at more than that fetches the next portion, or fails if it cannot be read.  So a fault
in the layout counts before one in a later portion.

`Scan` is a step that may look ahead and move the cursor.
-/

namespace LogRelay.Yaml

/-- A place in a file. -/
structure Cursor where
  /-- What has been fetched and lies ahead. -/
  rest : Text
  /-- What has not been fetched. -/
  feed : Feed
  /-- How many code points the file has, as far as it can be read. -/
  size : Nat
  /-- How many code points stand before it. -/
  index : Nat := 0
  line : Nat := 0
  column : Nat := 0

/-- A file that breaks a rule of the format. -/
def malformed {α : Type} : Except Failure α := .error .malformedSettings

/-- The failure of a number with more digits than are read. -/
def tooManyDigits (count : Nat) : Failure :=
  .badValue (Json.Fault.message [] (.tooManyDigits count))

/-! ### Character classes -/

/-- A code point that breaks a line. -/
def isBreak (c : CodePoint) : Bool :=
  c.val == 10 || c.val == 13 || c.val == 0x85 || c.val == 0x2028 || c.val == 0x2029

/-- A space or a tab. -/
def isBlank (c : CodePoint) : Bool := c = ' ' || c = '\t'

/-- The end of a line or of the file. -/
def isEnd : Option CodePoint → Bool
  | none => true
  | some c => isBreak c

/-- The end of a line, or a space. -/
def isSpaceOrEnd : Option CodePoint → Bool
  | none => true
  | some c => c = ' ' || isBreak c

/-- What separates tokens: a space, a tab, the end of a line or of the file. -/
def isGap : Option CodePoint → Bool
  | none => true
  | some c => isBlank c || isBreak c

/-- Whether a code point is one of some characters. -/
def isOneOf (chars : String) : Option CodePoint → Bool
  | none => false
  | some c => (Text.ofString chars).contains c

/-- A code point of a name: a letter or digit of ASCII, a dash or an underscore. -/
def isNamePoint (c : CodePoint) : Bool :=
  Text.isDigit c || (65 ≤ c.val && c.val ≤ 90) || (97 ≤ c.val && c.val ≤ 122) || c = '-' || c = '_'

/-- A code point that a file may hold. -/
def isAllowed (c : CodePoint) : Bool :=
  let n := c.val
  n == 9 || n == 10 || n == 13 || (0x20 ≤ n && n ≤ 0x7E) || n == 0x85 || (0xA0 ≤ n && n ≤ 0xD7FF) ||
    (0xE000 ≤ n && n ≤ 0xFFFD) || 0x10000 ≤ n

/-! ### Fetching -/

/-- A text once its code points have been looked at. -/
def allowed (t : Text) : Except Failure Text := if t.all isAllowed then .ok t else malformed

/-- Whether a text has so many code points. -/
def reaches (count : Nat) (t : Text) : Bool := count == 0 || !(t.drop (count - 1)).isEmpty

/-- Fetches portions behind a text until enough has been fetched, or the file ends. -/
def fetchUntil (enough : Text → Bool) (t : Text) : Feed → Except Failure (Text × Feed)
  | .finished => .ok (t, .finished)
  | .broken f => if enough t then .ok (t, .broken f) else .error f
  | .portion p more =>
    if enough t then .ok (t, .portion p more)
    else
      match allowed p with
      | .error f => .error f
      | .ok p => fetchUntil enough (t ++ p) more

namespace Cursor

/-- The start of a file, of which two portions are fetched at once. -/
def start (feed : Feed) : Except Failure Cursor :=
  let fetched : Except Failure (Text × Feed) :=
    match feed with
    | .finished => .ok ([], .finished)
    | .broken f => .error f
    | .portion first more =>
      match more with
      | .finished => .ok (first, .finished)
      | .broken f => .error f
      | .portion second more => .ok (first ++ second, more)
  match fetched with
  | .error f => .error f
  | .ok (t, feed) => (allowed t).map fun t => { rest := t, feed, size := t.length + feed.length }

/-- One code point on. -/
def step (c : Cursor) : Cursor :=
  match c.rest with
  | [] => c
  | x :: rest =>
    if isBreak x && !(x = '\r' && rest.head? == some ('\n' : CodePoint)) then
      { c with rest, index := c.index + 1, line := c.line + 1, column := 0 }
    else if x.val = 0xFEFF then { c with rest, index := c.index + 1 }
    else { c with rest, index := c.index + 1, column := c.column + 1 }

/-- Some code points on. -/
def advance (c : Cursor) : Nat → Cursor
  | 0 => c
  | n + 1 => c.step.advance n

end Cursor

/-- A step through a file. -/
abbrev Scan := StateT Cursor (Except Failure)

namespace Scan

/-- Gives up. -/
def refuse {α : Type} : Scan α := fun _ => malformed

/-- Goes on only if a condition holds. -/
def require (condition : Bool) : Scan Unit := if condition then pure () else refuse

/-- Sees to it that enough has been fetched. -/
def fetch (enough : Text → Bool) : Scan Unit := fun c =>
  match fetchUntil enough c.rest c.feed with
  | .error f => .error f
  | .ok (rest, feed) => .ok ((), { c with rest, feed })

/-- The code point some places on. -/
def peek (k : Nat := 0) : Scan (Option CodePoint) := do
  fetch (reaches (k + 1))
  return (← get).rest[k]?

/-- The next code points. -/
def ahead (count : Nat) : Scan Text := do
  fetch (reaches count)
  return (← get).rest.take count

/-- Moves on; the code point behind the new place is looked at too. -/
def forward (count : Nat := 1) : Scan Unit := do
  fetch (reaches (count + 1))
  modify (·.advance count)

/-- The column of the cursor. -/
def column : Scan Nat := return (← get).column

/-- More steps than the file has code points. -/
def bound : Scan Nat := return (← get).size + 2

/-- Passes over the code points up to the first that is not of a class, and returns them. -/
def spanWhile (p : CodePoint → Bool) : Scan Text := do
  fetch fun t => !t.all p
  let t := (← get).rest.takeWhile p
  forward t.length
  return t

/-- Passes over spaces. -/
def skipSpaces : Scan Unit := discard (spanWhile (· == (' ' : CodePoint)))

/-- Passes over a comment, up to the end of the line. -/
def skipComment : Scan Unit := do
  if isOneOf "#" (← peek) then discard (spanWhile fun x => !isBreak x)

/-- Passes over the line break at a place, if there is one, and returns it; all but the two
separators count as a line feed. -/
def lineBreak : Scan (Option CodePoint) := do
  match ← peek with
  | none => return none
  | some x =>
    if !isBreak x then return none
    else if x.val = 0x2028 || x.val = 0x2029 then
      forward
      return some x
    else
      forward (if (← ahead 2) = ("\r\n" : Text) then 2 else 1)
      return some '\n'

/-- Whether a mark of three equal characters stands here by itself. -/
def atMark (char : CodePoint) : Scan Bool := do
  if (← ahead 3) = [char, char, char] then return isGap (← peek 3) else return false

/-- Whether a mark between documents stands here. -/
def atDocumentMark : Scan Bool := do
  if ← atMark '-' then return true else atMark '.'

/-- Passes over the rest of a line that may hold only a comment. -/
def skipIgnoredLine : Scan Unit := do
  skipSpaces
  skipComment
  require (isEnd (← peek))
  discard lineBreak

end Scan

end LogRelay.Yaml
