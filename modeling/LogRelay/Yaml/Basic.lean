import LogRelay.Base64
import LogRelay.Yaml.Datum
import LogRelay.Yaml.Node
import LogRelay.Yaml.Number

/-!
# Reading a settings file

`Yaml.parse` reads a settings file: tokens, nodes, and from these by their tags the data.

A node is built when it is first met, and built once.  A collection is given an empty cell at first,
and the cells are filled in the order in which they were given; so of two faults the one that is
nested less deep counts, and nodes that hold themselves need no care.
-/

namespace LogRelay.Yaml

/-- A collection that has been given a cell which is still to be filled. -/
structure Unfilled where
  node : Nat
  cell : Nat

/-- The data built so far. -/
structure Construction where
  /-- The nodes; merging changes their members. -/
  nodes : Array Node
  /-- What has been built of each node. -/
  built : Array (Option Datum)
  cells : Array Cell := #[]
  /-- The cells to be filled, in order. -/
  waiting : List Unfilled := []

/-- A step of building data. -/
abbrev Building := StateT Construction (Except Failure)

namespace Building

/-- Gives up. -/
def refuse {α : Type} : Building α := fun _ => malformed

/-- A node by its number. -/
def node (n : Nat) : Building Node := do
  match (← get).nodes[n]? with
  | some x => return x
  | none => refuse

/-- Changes a node. -/
def setNode (n : Nat) (x : Node) : Building Unit :=
  modify fun s => { s with nodes := s.nodes.setIfInBounds n x }

/-- The members of a node, which must be a mapping. -/
def members (n : Nat) : Building (List (Nat × Nat)) := do
  match (← node n).content with
  | .members ms => return ms
  | _ => refuse

/-- Changes the members of a mapping. -/
def setMembers (n : Nat) (ms : List (Nat × Nat)) : Building Unit := do
  setNode n { ← node n with content := .members ms }

/-- The items of a node, which must be a sequence. -/
def items (n : Nat) : Building (List Nat) := do
  match (← node n).content with
  | .items ns => return ns
  | _ => refuse

/-- Whether a node has a tag. -/
def hasTag (tag : Tag) (n : Nat) : Building Bool := return (← node n).tag = tag

/-- Adds a cell. -/
def addCell (c : Cell) : Building Nat := do
  let s ← get
  set { s with cells := s.cells.push c }
  return s.cells.size

/-- Fills a cell. -/
def setCell (n : Nat) (c : Cell) : Building Unit :=
  modify fun s => { s with cells := s.cells.setIfInBounds n c }

/-! ### Merging -/

mutual

/-- Puts the members of merged mappings before those of a mapping, which then merges nothing any
more.  Keys that stand for a value by themselves are texts from then on. -/
def merge : (fuel : Nat) → (n : Nat) → Building Unit
  | 0, _ => refuse
  | fuel + 1, n => do
    let before ← gather fuel n
    let own ← members n
    own.forM fun (key, _) => do
      if ← hasTag .value key then setNode key { ← node key with tag := .text }
    if !before.isEmpty then setMembers n (before ++ own)

/-- Takes the merged mappings out of a mapping one after another, and returns their members. -/
def gather : (fuel : Nat) → (n : Nat) → Building (List (Nat × Nat))
  | 0, _ => refuse
  | fuel + 1, n => do
    let ms ← members n
    match ← ms.findM? fun m => hasTag .merge m.1 with
    | none => return []
    | some m =>
      setMembers n (ms.eraseP (·.1 == m.1))
      return (← mergedMembers fuel m.2) ++ (← gather fuel n)

/-- The members of a merged mapping.  Of a sequence of mappings the last comes first, so that
earlier ones prevail. -/
def mergedMembers : (fuel : Nat) → (n : Nat) → Building (List (Nat × Nat))
  | 0, _ => refuse
  | fuel + 1, n => do
    match (← node n).content with
    | .text _ => refuse
    | .members _ =>
      merge fuel n
      members n
    | .items ns =>
      let groups ← ns.mapM fun item => do
        discard (members item)
        merge fuel item
        members item
      return groups.reverse.flatten

end

/-- How far the members of nodes can be merged into one another. -/
def mergeBound : Building Nat := do
  let count := (← get).nodes.foldl (fun n x =>
    match x.content with
    | .members ms => n + ms.length
    | _ => n) 0
  return 3 * count + 3

/-- The members of a mapping, with those of merged mappings. -/
def mergedHere (n : Nat) : Building (List (Nat × Nat)) := do
  discard (members n)
  merge (← mergeBound) n
  members n

/-! ### Scalars -/

/-- The failure of a mapping whose text is its own. -/
def endless : Failure := .tooDeep "maximum recursion depth exceeded"

/-- The text of a scalar; a mapping may have one under the key for a value by itself. -/
def textOf : (fuel : Nat) → (n : Nat) → Building Text
  | 0, _ => throw endless
  | fuel + 1, n => do
    match (← node n).content with
    | .text t => return t
    | .items _ => refuse
    | .members ms =>
      match ← ms.findM? fun m => hasTag .value m.1 with
      | some m => textOf fuel m.2
      | none => refuse

/-- The time that a text stands for. -/
def timeOf (t : Text) : Except Failure Timestamp :=
  match Timestamp.parse? t.withoutLineFeed with
  | none => .error .notTimestamp
  | some time =>
    match time.problem? with
    | some m => .error (.badValue m)
    | none => .ok time

/-- The octets that a text stands for. -/
def octetsOf (t : Text) : Except Failure Bytes :=
  if t.any fun c => 127 < c.val then malformed
  else
    match Base64.decode t with
    | some bytes => .ok bytes
    | none => malformed

/-- The truth value that a word stands for. -/
def truthOf (t : Text) : Except Failure Bool :=
  let word := t.lower
  if (["yes", "true", "on"] : List Text).contains word then .ok true
  else if (["no", "false", "off"] : List Text).contains word then .ok false
  else .error (.unknownWord word)

/-- The atom of a node with the tag of a scalar. -/
def atom (n : Nat) (tag : Tag) : Building Atom := do
  let t ← textOf ((← get).nodes.size + 1) n
  match tag with
  | .null => return .null
  | .bool => return .bool (← truthOf t)
  | .int => return .int (← Number.intOf t)
  | .float =>
    let d ← Number.floatOf t
    return if Number.isNoNumber t then .nan none else .ofDouble n d
  | .timestamp =>
    match (← node n).content with
    | .text _ => return .timestamp (← timeOf t)
    | _ => throw .timestampOfMapping
  | .binary => return .octets (← octetsOf t)
  | _ => return .text t

/-! ### Collections -/

/-- The empty collection that a tag asks for, unless it is that of a scalar. -/
def emptyCell? : Tag → Option Cell
  | .sequence | .orderedMapping | .pairs => some (.list [])
  | .mapping => some (.map [])
  | .set => some (.set [])
  | _ => none

/-- The datum of a node; a collection is filled later. -/
def datum (n : Nat) : Building Datum := do
  match ((← get).built[n]?).join with
  | some d => return d
  | none =>
    let tag := (← node n).tag
    let d ← match emptyCell? tag with
      | some c => do
        let cell ← addCell c
        modify fun s => { s with waiting := s.waiting ++ [⟨n, cell⟩] }
        pure (Datum.cell cell)
      | none =>
        if tag = .merge ∨ tag = .value ∨ tag = .unknown then refuse else Datum.atom <$> atom n tag
    modify fun s => { s with built := s.built.setIfInBounds n (some d) }
    return d

/-- Builds the members of a mapping; only atoms are keys. -/
def mapMembers (ms : List (Nat × Nat)) : Building (List (Atom × Datum)) :=
  ms.foldlM (fun read (k, v) => do
    match ← datum k with
    | .cell _ => refuse
    | .atom key => return Cell.putMember key (← datum v) read) []

/-- Builds a pair of a mapping that has one member. -/
def pairOf (n : Nat) : Building Datum := do
  match ← members n with
  | [(k, v)] =>
    let key ← datum k
    let value ← datum v
    return .cell (← addCell (.pair key value))
  | _ => refuse

/-- The collection of a node with the tag of one. -/
def collection (n : Nat) : Building Cell := do
  match (← node n).tag with
  | .sequence => return .list (← (← items n).mapM datum)
  | .orderedMapping | .pairs => return .list (← (← items n).mapM pairOf)
  | .set => return .set ((← mapMembers (← mergedHere n)).map Prod.fst)
  | _ => return .map (← mapMembers (← mergedHere n))

/-- Fills the cells that wait, and those that come to wait meanwhile. -/
def fillAll : (fuel : Nat) → Building Unit
  | 0 => refuse
  | fuel + 1 => do
    match (← get).waiting with
    | [] => return ()
    | w :: rest =>
      modify ({ · with waiting := rest })
      setCell w.cell (← collection w.node)
      fillAll fuel

end Building

/-- What the nodes of a file stand for; a file without a document holds nothing. -/
def Document.ofGraph (g : Graph) : Except Failure Document :=
  match g.root with
  | none => .ok ⟨#[], .atom .null⟩
  | some root =>
    let build : Building Datum := do
      let d ← Building.datum root
      Building.fillAll (g.nodes.size + 1)
      return d
    match build.run ⟨g.nodes, Array.replicate g.nodes.size none, #[], []⟩ with
    | .error f => .error f
    | .ok (d, s) => .ok ⟨s.cells, d⟩

/-- What a settings file holds. -/
def parse (feed : Feed) : Except Failure Document := do
  Document.ofGraph (← Graph.ofTokens (Token.scan feed))

end LogRelay.Yaml
