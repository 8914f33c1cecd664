import LogRelay.Text.Utf8
import LogRelay.Yaml.Scalar

/-!
# Tokens of a settings file

`Token.scan` cuts a file into tokens.  Layout becomes tokens too: a deeper column opens a block, a
shallower one closes it, and a key is recognised only when the colon behind it is met, so that its
token is put in afterwards.

A token stands fast once no key can be put in before it.  Where a file cannot be scanned to its end,
the tokens that stand fast by then are followed by the failure (`Tokens`).
-/

namespace LogRelay.Yaml

/-- A token. -/
inductive Token where
  | streamEnd
  | version (major : Nat)
  | tagAlias (handle uri : Text)
  | otherDirective
  | documentStart
  | documentEnd
  | blockSequenceStart
  | blockMappingStart
  | blockEnd
  | flowSequenceStart
  | flowSequenceEnd
  | flowMappingStart
  | flowMappingEnd
  | flowEntry
  | blockEntry
  | key
  | value
  | alias (name : Text)
  | anchor (name : Text)
  | tag (handle : Option Text) (suffix : Text)
  | scalar (text : Text) (isPlain : Bool)
deriving DecidableEq

/-- The tokens of a file, and what is wrong behind the last of them, if anything. -/
structure Tokens where
  tokens : List Token
  failure : Option Failure

/-- A token that turns out to be a key if a colon follows on its line. -/
structure PossibleKey where
  /-- The count of brackets around it. -/
  depth : Nat
  /-- How many tokens stand before it. -/
  position : Nat
  /-- Whether it must be a key, since nothing else can stand in its column. -/
  required : Bool
  index : Nat
  line : Nat
  column : Nat

/-- The scanner between two tokens. -/
structure Scanner where
  cursor : Cursor
  /-- The tokens so far, the last one first. -/
  tokens : List Token := []
  /-- How many tokens there are. -/
  count : Nat := 0
  /-- The column of the innermost block, -1 outside of all. -/
  indent : Int := -1
  /-- The columns of the blocks around it. -/
  outer : List Int := []
  /-- The count of open brackets. -/
  depth : Nat := 0
  /-- Whether a key may begin here. -/
  keyAllowed : Bool := true
  possibleKeys : List PossibleKey := []

namespace Scanner

/-- Adds a token. -/
def push (s : Scanner) (t : Token) : Scanner :=
  { s with tokens := t :: s.tokens, count := s.count + 1 }

/-- Puts a token in behind the first tokens. -/
def insert (s : Scanner) (position : Nat) (t : Token) : Scanner :=
  let later := s.count - position
  { s with tokens := s.tokens.take later ++ t :: s.tokens.drop later, count := s.count + 1 }

/-- How many tokens stand fast: those before every token that may yet be a key. -/
def settledCount (s : Scanner) : Nat := s.possibleKeys.foldl (fun n k => min n k.position) s.count

/-- The tokens that stand fast, and a failure behind them. -/
def stopped (s : Scanner) (f : Failure) : Tokens := ⟨s.tokens.reverse.take s.settledCount, some f⟩

/-! ### Keys -/

/-- How far a colon may be from the start of its key. -/
def keyReach : Nat := 1024

/-- Whether the colon behind a possible key can no longer be met. -/
def isStale (s : Scanner) (k : PossibleKey) : Bool :=
  k.line != s.cursor.line || keyReach < s.cursor.index - k.index

/-- Drops some possible keys, unless one of them must be a key. -/
def dropKeys (s : Scanner) (p : PossibleKey → Bool) : Except Failure Scanner :=
  if s.possibleKeys.any fun k => p k && k.required then malformed
  else .ok { s with possibleKeys := s.possibleKeys.filter fun k => !p k }

/-! ### Indentation -/

/-- Closes the blocks that are deeper than a column. -/
def unwindFrom (column : Int) (s : Scanner) : (outer : List Int) → Scanner
  | [] => if column < s.indent then { s.push .blockEnd with indent := -1, outer := [] } else s
  | i :: rest =>
    if column < s.indent then
      unwindFrom column { s.push .blockEnd with indent := i, outer := rest } rest
    else s

/-- Closes the blocks that are deeper than a column; inside brackets indentation does not matter. -/
def unwind (s : Scanner) (column : Int) : Scanner :=
  if s.depth == 0 then unwindFrom column s s.outer else s

/-- Opens a block at a column, if it is deeper than the one around it, and adds its token there. -/
def openBlock (s : Scanner) (column position : Nat) (t : Token) : Scanner :=
  if s.indent < column then
    { s.insert position t with indent := column, outer := s.indent :: s.outer }
  else s

end Scanner

/-- A step of the scanner. -/
abbrev Scanning := StateT Scanner (Except Failure)

namespace Scanning

/-- A step of the cursor. -/
def here {α : Type} (step : Scan α) : Scanning α := fun s =>
  match step.run s.cursor with
  | .error f => .error f
  | .ok (a, c) => .ok (a, { s with cursor := c })

/-- Gives up. -/
def refuse {α : Type} : Scanning α := here Scan.refuse

/-- The code point some places on. -/
def peek (k : Nat := 0) : Scanning (Option CodePoint) := here (Scan.peek k)

/-- Adds a token. -/
def push (t : Token) : Scanning Unit := modify (·.push t)

/-- Says whether a key may begin behind the token. -/
def allowKey (isAllowed : Bool) : Scanning Unit := modify ({ · with keyAllowed := isAllowed })

/-- Whether brackets are open. -/
def inFlow : Scanning Bool := return (← get).depth != 0

/-- Drops the keys that can no longer be completed, unless one of them must be. -/
def dropStaleKeys : Scanning Unit := do
  let s ← get
  set (← s.dropKeys s.isStale)

/-- Gives up the possible key inside the innermost brackets, unless it must be one. -/
def dropKey : Scanning Unit := do
  let s ← get
  set (← s.dropKeys (·.depth == s.depth))

/-- Remembers that the next token may be a key. -/
def noteKey : Scanning Unit := do
  if (← get).keyAllowed then
    dropKey
    let s ← get
    let c := s.cursor
    let key : PossibleKey :=
      ⟨s.depth, s.count, s.depth == 0 && s.indent == c.column, c.index, c.line, c.column⟩
    set { s with possibleKeys := key :: s.possibleKeys }

/-! ### Tags -/

/-- The handle of a tag. -/
def tagHandle : Scan Text := do
  Scan.require (isOneOf "!" (← Scan.peek))
  let isAlone := isOneOf " " (← Scan.peek 1)
  Scan.forward
  if isAlone then return "!"
  else
    let name ← Scan.spanWhile isNamePoint
    Scan.require (isOneOf "!" (← Scan.peek))
    Scan.forward
    return "!" ++ name ++ "!"

/-- The octets of escapes in the address of a tag; `octets` holds those before them in reverse. -/
def uriEscapes : (fuel : Nat) → (octets : Bytes) → Scan Bytes
  | 0, _ => Scan.refuse
  | fuel + 1, octets => do
    if isOneOf "%" (← Scan.peek) then
      Scan.forward
      let octet ← Scan.hexValueFrom 0 2 0
      Scan.forward 2
      uriEscapes fuel (octet.toUInt8 :: octets)
    else return octets.reverse

/-- Whether a code point may stand in the address of a tag. -/
def isUriPoint (c : CodePoint) : Bool :=
  isNamePoint c || isOneOf ";/?:@&=+$,.!~*'()[]" (some c)

/-- The address of a tag; `read` is what stands before. -/
def tagUri : (fuel : Nat) → (read : Text) → Scan Text
  | 0, _ => Scan.refuse
  | fuel + 1, read => do
    let read := read ++ (← Scan.spanWhile isUriPoint)
    if isOneOf "%" (← Scan.peek) then
      match Utf8.decodeStrict (← uriEscapes (← Scan.bound) []) with
      | .ok t => tagUri fuel (read ++ t)
      | .error _ => Scan.refuse
    else
      Scan.require (!read.isEmpty)
      return read

/-- The address of a tag at the cursor. -/
def tagUriHere : Scan Text := do tagUri (← Scan.bound) []

/-- Whether another exclamation mark stands in the tag at the cursor. -/
def hasHandle : Scan Bool := do
  let ends (x : CodePoint) : Bool := x = '!' || x = ' ' || isBreak x
  Scan.fetch fun t => (t.drop 1).any ends
  return ((← get).rest.drop 1).find? ends == some ('!' : CodePoint)

/-- The token of a tag. -/
def tagToken : Scan Token := do
  let next ← Scan.peek 1
  let token ←
    if isOneOf "<" next then do
      Scan.forward 2
      let uri ← tagUriHere
      Scan.require (isOneOf ">" (← Scan.peek))
      Scan.forward
      pure (Token.tag none uri)
    else if isGap next then do
      Scan.forward
      pure (Token.tag none "!")
    else if ← hasHandle then do
      let handle ← tagHandle
      pure (Token.tag (some handle) (← tagUriHere))
    else do
      Scan.forward
      pure (Token.tag (some "!") (← tagUriHere))
  Scan.require (isSpaceOrEnd (← Scan.peek))
  return token

/-! ### Directives -/

/-- A number of a version directive. -/
def versionNumber : Scan Nat := do
  let ds ← Scan.spanWhile Text.isDigit
  if ds.isEmpty then Scan.refuse
  else if Json.digitLimit < ds.length then throw (tooManyDigits ds.length)
  else return Text.digitsValue ds

/-- The value of a version directive. -/
def versionDirective : Scan Token := do
  Scan.skipSpaces
  let major ← versionNumber
  Scan.require (isOneOf "." (← Scan.peek))
  Scan.forward
  discard versionNumber
  Scan.require (isSpaceOrEnd (← Scan.peek))
  return .version major

/-- The value of a tag directive. -/
def tagDirective : Scan Token := do
  Scan.skipSpaces
  let handle ← tagHandle
  Scan.require (isOneOf " " (← Scan.peek))
  Scan.skipSpaces
  let uri ← tagUriHere
  Scan.require (isSpaceOrEnd (← Scan.peek))
  return .tagAlias handle uri

/-- The token of a directive. -/
def directiveToken : Scan Token := do
  Scan.forward
  let name ← Scan.spanWhile isNamePoint
  Scan.require (!name.isEmpty && isSpaceOrEnd (← Scan.peek))
  let token ←
    if name = "YAML" then versionDirective
    else if name = "TAG" then tagDirective
    else do
      discard (Scan.spanWhile fun x => !isBreak x)
      pure Token.otherDirective
  Scan.skipIgnoredLine
  return token

/-! ### Tokens by their indicators -/

/-- Adds the token of a step at the cursor. -/
def pushFrom (step : Scan Token) : Scanning Unit := do push (← here step)

/-- Adds a token of one character. -/
def pushMark (t : Token) : Scanning Unit := do
  here Scan.forward
  push t

/-- Closes all blocks before a directive or document mark. -/
def margin : Scanning Unit := do
  modify (·.unwind (-1))
  dropKey
  allowKey false

/-- A directive. -/
def directive : Scanning Unit := do
  margin
  pushFrom directiveToken

/-- A mark between documents. -/
def documentMark (t : Token) : Scanning Unit := do
  margin
  here (Scan.forward 3)
  push t

/-- An opening bracket, which may begin a key. -/
def openFlow (t : Token) : Scanning Unit := do
  noteKey
  modify fun s => { s with depth := s.depth + 1 }
  allowKey true
  pushMark t

/-- A closing bracket. -/
def closeFlow (t : Token) : Scanning Unit := do
  dropKey
  modify fun s => { s with depth := s.depth - 1 }
  allowKey false
  pushMark t

/-- A comma inside brackets. -/
def flowEntry : Scanning Unit := do
  allowKey true
  dropKey
  pushMark .flowEntry

/-- Opens a block at the cursor, where one may begin. -/
def openBlockHere (t : Token) : Scanning Unit := do
  let s ← get
  if s.depth == 0 then
    if s.keyAllowed then set (s.openBlock s.cursor.column s.count t) else refuse

/-- The dash of an item. -/
def blockEntry : Scanning Unit := do
  openBlockHere .blockSequenceStart
  allowKey true
  dropKey
  pushMark .blockEntry

/-- The mark of a key that may be longer than a line, or of a value without a key before it. -/
def explicitMark (t : Token) : Scanning Unit := do
  openBlockHere .blockMappingStart
  allowKey (!(← inFlow))
  dropKey
  pushMark t

/-- The colon behind a key: what stands before it on the line becomes the key. -/
def valueMark : Scanning Unit := do
  let s ← get
  match s.possibleKeys.find? (·.depth == s.depth) with
  | some k =>
    let s := { s with possibleKeys := s.possibleKeys.filter (·.depth != s.depth) }
    let s := s.insert k.position .key
    set (if s.depth == 0 then s.openBlock k.column k.position .blockMappingStart else s)
    allowKey false
    pushMark .value
  | none => explicitMark .value

/-- A name behind its indicator: an anchor or an alias. -/
def name (token : Text → Token) : Scanning Unit := do
  noteKey
  allowKey false
  pushFrom do
    Scan.forward
    let n ← Scan.spanWhile isNamePoint
    let next ← Scan.peek
    Scan.require (!n.isEmpty && (isGap next || isOneOf "?:,]\x7d%@\x60" next))
    return token n

/-- A tag. -/
def tag : Scanning Unit := do
  noteKey
  allowKey false
  pushFrom tagToken

/-- A literal or folded block. -/
def block (folded : Bool) : Scanning Unit := do
  allowKey true
  dropKey
  let outer := (← get).indent
  pushFrom do
    Scan.forward
    return .scalar (← Scan.blockScalar folded outer) false

/-- A quoted scalar. -/
def quoted (double : Bool) : Scanning Unit := do
  noteKey
  allowKey false
  pushFrom do
    Scan.forward
    return .scalar (← Scan.quotedScalar double (← Scan.bound) []) false

/-- A plain scalar; behind a line break a key may begin. -/
def plain : Scanning Unit := do
  noteKey
  let s ← get
  let (t, broken) ← here do
    Scan.plainScalar (s.depth != 0) s.indent (← Scan.bound) [] [] false
  allowKey broken
  push (.scalar t true)

/-- Whether a plain scalar may begin at the cursor. -/
def startsPlain : Scanning Bool := do
  let x ← peek
  if isGap x || isOneOf "-?:,[]\x7b\x7d#&*!|>'\"%@\x60" x then
    let next ← peek 1
    return !isGap next && (isOneOf "-" x || (!(← inFlow) && isOneOf "?:" x))
  else return true

/-- Passes over spaces, comments and line breaks; behind a line break a key may begin. -/
def toToken : (fuel : Nat) → Scanning Unit
  | 0 => refuse
  | fuel + 1 => do
    here Scan.skipSpaces
    here Scan.skipComment
    if (← here Scan.lineBreak).isSome then
      if !(← inFlow) then allowKey true
      toToken fuel

/-- Passes over the mark of the octet order, which may stand at the start of a file. -/
def skipOrderMark : Scanning Unit := do
  if (← get).cursor.index = 0 then
    if ((← peek).map Fin.val) = some 0xFEFF then here Scan.forward

/-- The end of the file. -/
def finish : Scanning Unit := do
  modify (·.unwind (-1))
  dropKey
  push .streamEnd

/-- Whether the character `x` at the cursor is a certain one, and a gap follows. -/
def isBeforeGap (x char : CodePoint) : Scanning Bool := do
  if x = char then return isGap (← peek 1) else return false

/-- Whether the character `x` at the cursor is a certain one, and marks a key or value; in brackets
no gap need follow. -/
def isMark (x char : CodePoint) : Scanning Bool := do
  if ← inFlow then return x = char else isBeforeGap x char

/-- Whether a mark between documents, of the character `x` at the cursor, stands here. -/
def atMark (x char : CodePoint) : Scanning Bool := do
  if x = char && (← get).cursor.column == 0 then here (Scan.atMark char) else return false

/-- The next token, which begins with `x`. -/
def next (x : CodePoint) : Scanning Unit := do
  let isFlow ← inFlow
  if x = '%' && (← get).cursor.column == 0 then directive
  else if ← atMark x '-' then documentMark .documentStart
  else if ← atMark x '.' then documentMark .documentEnd
  else if x = '[' then openFlow .flowSequenceStart
  else if x = '\x7b' then openFlow .flowMappingStart
  else if x = ']' then closeFlow .flowSequenceEnd
  else if x = '\x7d' then closeFlow .flowMappingEnd
  else if x = ',' then flowEntry
  else if ← isBeforeGap x '-' then blockEntry
  else if ← isMark x '?' then explicitMark .key
  else if ← isMark x ':' then valueMark
  else if x = '*' then name .alias
  else if x = '&' then name .anchor
  else if x = '!' then tag
  else if x = '|' && !isFlow then block false
  else if x = '>' && !isFlow then block true
  else if x = '\'' then quoted false
  else if x = '"' then quoted true
  else if ← startsPlain then plain
  else refuse

/-- Scans up to the next token, and tells whether there was one. -/
def advance : Scanning Bool := do
  skipOrderMark
  toToken (← here Scan.bound)
  dropStaleKeys
  modify fun s => s.unwind s.cursor.column
  match ← peek with
  | none =>
    finish
    return false
  | some x =>
    next x
    dropStaleKeys
    return true

end Scanning

/-- Scans up to the end of the file. -/
def Scanner.run : (fuel : Nat) → Scanner → Tokens
  | 0, s => s.stopped .malformedSettings
  | fuel + 1, s =>
    match Scanning.advance.run s with
    | .error f => s.stopped f
    | .ok (true, s) => run fuel s
    | .ok (false, s) => ⟨s.tokens.reverse, none⟩

/-- The tokens of a file; one whose beginning cannot be read has none. -/
def Token.scan (feed : Feed) : Tokens :=
  match Cursor.start feed with
  | .error f => ⟨[], some f⟩
  | .ok c => Scanner.run (c.size + 2) { cursor := c }

end LogRelay.Yaml
