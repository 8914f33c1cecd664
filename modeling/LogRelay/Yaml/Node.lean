import LogRelay.Yaml.Tag
import LogRelay.Yaml.Token

/-!
# Nodes of a settings file

A file is a graph of scalars, sequences and mappings.  Nodes are known by their numbers: an alias is
another way to the node that its anchor stands at, and inside that node it leads back to it.
`Graph.ofTokens` reads the one document that a file may hold; a file without any has no root.
-/

namespace LogRelay.Yaml

/-- What a node is made of. -/
inductive Content where
  | text (t : Text)
  | items (nodes : List Nat)
  | members (nodes : List (Nat × Nat))

/-- A node. -/
structure Node where
  tag : Tag
  content : Content

/-- The nodes of a file, in the order in which they begin. -/
structure Graph where
  nodes : Array Node
  root : Option Nat

namespace Graph

/-! ### Tags -/

/-- The tag of a collection; an exclamation mark alone gives none. -/
def collectionTag (plain : Tag) (address : Option Text) : Tag :=
  match address with
  | none => plain
  | some a => if a = "!" then plain else Tag.ofAddress a

/-- The tag of a scalar, which may have to be found from its text; an exclamation mark alone asks
for that even in quotes. -/
def scalarTag (address : Option Text) (isPlain : Bool) (t : Text) : Tag :=
  match address with
  | none => if isPlain then Tag.ofPlain t else .text
  | some a => if a = "!" then Tag.ofPlain t else Tag.ofAddress a

/-! ### Reading tokens -/

/-- What has been read so far. -/
structure Reading where
  /-- The tokens ahead. -/
  tokens : List Token
  /-- What is wrong behind them. -/
  failure : Option Failure
  /-- What each tag handle stands for. -/
  handles : List (Text × Text)
  nodes : Array Node := #[]
  /-- The anchors met, with their nodes. -/
  anchors : List (Text × Nat) := []

/-- Something read from tokens. -/
abbrev Reader := StateT Reading (Except Failure)

/-- The handles that need no directive. -/
def standardHandles : List (Text × Text) := [("!", "!"), ("!!", "tag:yaml.org,2002:")]

/-- Gives up reading. -/
def refuse {α : Type} : Reader α := fun _ => malformed

/-- The next token; only who looks at it meets a failure in its place. -/
def peek : Reader Token := do
  let r ← get
  match r.tokens, r.failure with
  | t :: _, _ => return t
  | [], some f => throw f
  | [], none => return .streamEnd

/-- Passes over the next token. -/
def skip : Reader Unit := modify fun r => { r with tokens := r.tokens.tail }

/-- Passes over the next token if it is a certain one. -/
def skipIf (t : Token) : Reader Bool := do
  if (← peek) = t then
    skip
    return true
  else return false

/-- Passes over a token that must be there. -/
def expect (t : Token) : Reader Unit := do
  if !(← skipIf t) then refuse

/-! ### Anchors and aliases -/

/-- Adds a node, to which an anchor may lead; no two nodes have the same anchor. -/
def add (anchor : Option Text) (n : Node) : Reader Nat := do
  let r ← get
  if anchor.any fun name => (r.anchors.lookup name).isSome then refuse
  let anchors := anchor.toList.map fun name => (name, r.nodes.size)
  set { r with nodes := r.nodes.push n, anchors := anchors ++ r.anchors }
  return r.nodes.size

/-- Adds a node whose parts are read once it has its number. -/
def addAround (anchor : Option Text) (tag : Tag) (content : Reader Content) : Reader Nat := do
  let n ← add anchor ⟨tag, .items []⟩
  let parts ← content
  modify fun r => { r with nodes := r.nodes.setIfInBounds n ⟨tag, parts⟩ }
  return n

/-- Adds a scalar that is left out. -/
def missing : Reader Nat := add none ⟨.null, .text []⟩

/-- The node of an alias. -/
def ofAlias (name : Text) : Reader Nat := do
  match (← get).anchors.lookup name with
  | some n => return n
  | none => refuse

/-- An anchor, if one is there. -/
def anchor? : Reader (Option Text) := do
  match ← peek with
  | .anchor name =>
    skip
    return some name
  | _ => return none

/-- A tag as it is written, if one is there. -/
def tag? : Reader (Option (Option Text × Text)) := do
  match ← peek with
  | .tag handle suffix =>
    skip
    return some (handle, suffix)
  | _ => return none

/-- The address of a tag: what the handle stands for, and the suffix. -/
def address (handle : Option Text) (suffix : Text) : Reader Text := do
  match handle with
  | none => return suffix
  | some name =>
    match (← get).handles.lookup name with
    | some start => return start ++ suffix
    | none => refuse

/-- An anchor and the address of a tag, in either order. -/
def properties : Reader (Option Text × Option Text) := do
  let before ← anchor?
  let tag ← tag?
  let anchor ← if before.isNone && tag.isSome then anchor? else pure before
  match tag with
  | none => return (anchor, none)
  | some (handle, suffix) => return (anchor, some (← address handle suffix))

/-! ### Nodes -/

mutual

/-- A node.  Collections in block style are read where `inBlock` allows them, and a sequence that is
not indented where `indentless` does. -/
def node (inBlock indentless : Bool) : (fuel : Nat) → Reader Nat
  | 0 => refuse
  | fuel + 1 => do
    match ← peek with
    | .alias name =>
      skip
      ofAlias name
    | _ =>
      let (anchor, tag) ← properties
      content inBlock indentless anchor tag fuel

/-- A node behind its anchor and tag, either of which may stand for an empty scalar. -/
def content (inBlock indentless : Bool) (anchor tag : Option Text) : (fuel : Nat) → Reader Nat
  | 0 => refuse
  | fuel + 1 => do
    let sequence (items : Reader (List Nat)) : Reader Nat :=
      addAround anchor (collectionTag .sequence tag) (Content.items <$> items)
    let mapping (members : Reader (List (Nat × Nat))) : Reader Nat :=
      addAround anchor (collectionTag .mapping tag) (Content.members <$> members)
    match ← peek with
    | .scalar text isPlain =>
      skip
      add anchor ⟨scalarTag tag isPlain text, .text text⟩
    | .flowSequenceStart =>
      skip
      sequence (flowItems true fuel)
    | .flowMappingStart =>
      skip
      mapping (flowMembers true fuel)
    | token =>
      if indentless && token = .blockEntry then sequence (blockItems false fuel)
      else if inBlock && token = .blockSequenceStart then
        skip
        sequence (blockItems true fuel)
      else if inBlock && token = .blockMappingStart then
        skip
        mapping (blockMembers fuel)
      else if anchor.isSome || tag.isSome then add anchor ⟨scalarTag tag true [], .text []⟩
      else refuse

/-- The items of a sequence in block style; one that is indented has an end of its own. -/
def blockItems (indented : Bool) : (fuel : Nat) → Reader (List Nat)
  | 0 => refuse
  | fuel + 1 => do
    if ← skipIf .blockEntry then
      let next ← peek
      let isMissing :=
        next = .blockEntry || next = .blockEnd || (!indented && (next = .key || next = .value))
      let item ← if isMissing then missing else node true false fuel
      return item :: (← blockItems indented fuel)
    else
      if indented then expect .blockEnd
      return []

/-- The key or value of a member in block style, or nothing. -/
def blockPart (fuel : Nat) : Reader Nat :=
  match fuel with
  | 0 => refuse
  | fuel + 1 => do
    let next ← peek
    if next = .key || next = .value || next = .blockEnd then missing else node true true fuel

/-- The members of a mapping in block style. -/
def blockMembers : (fuel : Nat) → Reader (List (Nat × Nat))
  | 0 => refuse
  | fuel + 1 => do
    if ← skipIf .key then
      let key ← blockPart fuel
      let value ← if ← skipIf .value then blockPart fuel else missing
      return (key, value) :: (← blockMembers fuel)
    else
      expect .blockEnd
      return []

/-- The key or value of a member inside brackets, or nothing before one of some tokens. -/
def flowPart (ends : List Token) (fuel : Nat) : Reader Nat :=
  match fuel with
  | 0 => refuse
  | fuel + 1 => do
    if ends.contains (← peek) then missing else node false false fuel

/-- A member with a key mark inside brackets that are closed by a token. -/
def flowMember (close : Token) (fuel : Nat) : Reader (Nat × Nat) :=
  match fuel with
  | 0 => refuse
  | fuel + 1 => do
    let key ← flowPart [.value, .flowEntry, close] fuel
    let value ← if ← skipIf .value then flowPart [.flowEntry, close] fuel else missing
    return (key, value)

/-- The items of a sequence inside brackets; a single member among them is a mapping of its own. -/
def flowItems (first : Bool) : (fuel : Nat) → Reader (List Nat)
  | 0 => refuse
  | fuel + 1 => do
    if ← skipIf .flowSequenceEnd then return []
    if !first then expect .flowEntry
    if ← skipIf .key then
      let item ← addAround none .mapping do
        return .members [← flowMember .flowSequenceEnd fuel]
      return item :: (← flowItems false fuel)
    else if ← skipIf .flowSequenceEnd then return []
    else
      let item ← node false false fuel
      return item :: (← flowItems false fuel)

/-- The members of a mapping inside brackets. -/
def flowMembers (first : Bool) : (fuel : Nat) → Reader (List (Nat × Nat))
  | 0 => refuse
  | fuel + 1 => do
    if ← skipIf .flowMappingEnd then return []
    if !first then expect .flowEntry
    if ← skipIf .key then
      let member ← flowMember .flowMappingEnd fuel
      return member :: (← flowMembers false fuel)
    else if ← skipIf .flowMappingEnd then return []
    else
      let key ← node false false fuel
      let value ← missing
      return (key, value) :: (← flowMembers false fuel)

end

/-! ### The document -/

/-- Reads directives: the version must be 1 and stand once, and a handle is declared once. -/
def directives : (fuel : Nat) → (versioned : Bool) → (handles : List (Text × Text)) → Reader Unit
  | 0, _, _ => refuse
  | fuel + 1, versioned, handles => do
    match ← peek with
    | .version major =>
      if versioned || major ≠ 1 then refuse
      skip
      directives fuel true handles
    | .tagAlias handle uri =>
      if (handles.lookup handle).isSome then refuse
      skip
      directives fuel versioned ((handle, uri) :: handles)
    | .otherDirective =>
      skip
      directives fuel versioned handles
    | _ => modify fun r => { r with handles := handles ++ standardHandles }

/-- Whether a token begins a document with a mark. -/
def isDocumentStart : Token → Bool
  | .version _ | .tagAlias .. | .otherDirective | .documentStart => true
  | _ => false

/-- Whether a token follows a document that is left out. -/
def isDocumentEnd (t : Token) : Bool := isDocumentStart t || t = .documentEnd || t = .streamEnd

/-- The directives and the mark before a document. -/
def documentMark (fuel : Nat) : Reader Unit := do
  directives fuel false []
  expect .documentStart

/-- Passes over marks of the end of a document. -/
def skipDocumentEnds : (fuel : Nat) → Reader Unit
  | 0 => refuse
  | fuel + 1 => do
    if ← skipIf .documentEnd then skipDocumentEnds fuel

/-- The document of a file, up to the end of the file; no other document may follow. -/
def document (fuel : Nat) : Reader (Option Nat) := do
  let first ← peek
  if first = .streamEnd then return none
  else
    let isMarked := isDocumentStart first
    if isMarked then documentMark fuel
    let root ← if isMarked && isDocumentEnd (← peek) then missing else node true false fuel
    skipDocumentEnds fuel
    if (← peek) ≠ .streamEnd then
      documentMark fuel
      refuse
    return some root

/-- The nodes of a file that has been cut into tokens. -/
def ofTokens (ts : Tokens) : Except Failure Graph :=
  match (document (4 * ts.tokens.length + 4)).run ⟨ts.tokens, ts.failure,
      standardHandles, #[], []⟩ with
  | .ok (root, r) => .ok ⟨r.nodes, root⟩
  | .error f => .error f

end Graph

end LogRelay.Yaml
