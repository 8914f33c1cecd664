import LogRelay.Disk.Contents
import LogRelay.Follower.Event
import LogRelay.Follower.Handle
import LogRelay.Follower.Refusal

/-!
# Following a file

A follower delivers every complete line that is appended to a file.  Between two polls it waits; a
poll (`poll`) takes turns until it would wait again.  A turn opens the file or checks whether it is
still the one at the path, and reads the next chunk.

* A file that is not there at the start is read from its beginning once it appears.
* Another file at the path: the old one is read to its end first, an unfinished last line included.
* A file that is shorter than what was read, or that changed and begins otherwise, is read from its
  beginning again.
* A refused call is retried at the next poll, until there are too many refusals in a row.
-/

namespace LogRelay

/-! ### What is seen of the file system -/

/-- What is at a path. -/
inductive Target where
  | file (number : Nat)
  | directory (number : Nat)
  | unreachable (e : Errno)
  | unnameable (why : Unnameable)

/-- What a follower sees of the file system: what is at its path, and the files by number. -/
structure View where
  target : Target
  data : Nat → FileData

/-- What is seen at a path. -/
def Disk.view (d : Disk) (path : Text) : View where
  target :=
    match unnameable? path with
    | some why => .unnameable why
    | none =>
      match d.place path with
      | .error e => .unreachable e
      | .ok ⟨_, some (.file n)⟩ => .file n
      | .ok ⟨_, some (.directory n)⟩ => .directory n
      | .ok _ => .unreachable .noEntry
  data := d.file

/-- The number of what is at the path. -/
def View.number? (view : View) : Option Nat :=
  match view.target with
  | .file n | .directory n => some n
  | _ => none

/-- What the file at the path holds. -/
def View.there (view : View) : Bytes :=
  match view.number? with
  | some n => (view.data n).bytes
  | none => []

/-! ### State -/

/-- Size and modification time, by which a change of a file is noticed. -/
structure Stamp where
  size : Nat
  mtime : Nat
deriving DecidableEq

/-- The stamp of a file. -/
def FileData.stamp (f : FileData) : Stamp := ⟨f.bytes.length, f.mtime⟩

/-- The state of following one file. -/
structure Follower where
  source : Source
  /-- The failure in a row that ends following; the first one does if this is not positive. -/
  limit : Int
  handle : Option Handle := none
  /-- The file that was opened last. -/
  identity : Option Nat := none
  stamp : Stamp := ⟨0, 0⟩
  /-- The first octets of the file, as they were last seen. -/
  head : Bytes := []
  /-- How many octets of the file have been taken over. -/
  offset : Nat := 0
  /-- What was read behind the last line feed. -/
  pending : Bytes := []
  /-- The failures since the last successful opening or reading. -/
  failures : Nat := 0
  /-- Whether the path was never tried before. -/
  firstOpen : Bool := true

/-- The count of octets read at once. -/
def chunkSize : Nat := 65536

/-- The count of octets a file is recognised by. -/
def headSize : Nat := 256

/-- A follower at work: its state, the refusals to come, and the events and calls so far, the last
one first. -/
structure Run where
  follower : Follower
  refusals : Refusals
  events : List FollowEvent := []
  calls : List Call := []

/-- A part of a follower's work, which a failure can end. -/
abbrev Work := EStateM Failure Run

namespace Work

/-- Records an event. -/
def emit (e : FollowEvent) : Work Unit := modify fun r => { r with events := e :: r.events }

/-- Changes the state of the follower. -/
def update (f : Follower → Follower) : Work Unit :=
  modify fun r => { r with follower := f r.follower }

/-- The state of the follower. -/
def follower : Work Follower := return (← get).follower

/-- Makes a call, which may be refused. -/
def ask (kind : CallKind) : Work (Option IoError) := do
  let r ← get
  let (refusal, refusals) := r.refusals.ask kind
  set { r with refusals, calls := ⟨kind, refusal⟩ :: r.calls }
  return refusal.map fun errno => ⟨errno, none⟩

/-- Counts a failure; the last one that is allowed for ends following. -/
def recordFailure (e : IoError) : Work Unit := do
  update fun f => { f with failures := f.failures + 1 }
  let f ← follower
  emit (.refused e.message f.failures)
  if f.limit ≤ f.failures then throw (.tail f.source.path.text e.message)

end Work

/-! ### Lines -/

/-- The text of a line: one carriage return at its end belongs to the line end. -/
def lineText (line : Bytes) : Text :=
  let t := Utf8.decode line
  match t.reverse with
  | c :: rest => if c = '\r' then rest.reverse else t
  | [] => t

/-- Who takes the lines: a line that cannot be taken ends following. -/
abbrev Taker := Text → Option Failure

namespace Work

/-- Delivers one line. -/
def deliverLine (take : Taker) (line : Bytes) : Work Unit := do
  let t := lineText line
  match take t with
  | some failure =>
    emit (.lineRefused t)
    throw failure
  | none => emit (.line t)

/-- Delivers several lines. -/
def deliverLines (take : Taker) : List Bytes → Work Unit
  | [] => pure ()
  | line :: rest => do
    deliverLine take line
    deliverLines take rest

/-- Takes over a chunk: the complete lines are delivered and the rest is kept. -/
def deliver (take : Taker) (chunk : Bytes) : Work Unit := do
  let f ← follower
  let parts := pieces (10 : UInt8) (f.pending ++ chunk)
  update fun f => { f with offset := f.offset + chunk.length, pending := parts.getLast?.getD [] }
  deliverLines take parts.dropLast

/-! ### Files -/

/-- Closes the file; a refusal is only reported. -/
def close : Work Unit := do
  let f ← follower
  if f.handle.isSome then
    if let some e ← ask .close then emit (.closeRefused e.message)
    update fun f => { f with handle := none }

/-- Reads the next chunk of the open file; nothing if reading is refused. -/
def readChunk (view : View) : Work Bytes := do
  let f ← follower
  match f.handle with
  | none => return []
  | some h =>
    if let some e ← ask .readNext then
      recordFailure e
      return []
    let (chunk, h) := h.read (view.data h.number).bytes chunkSize
    update fun f => { f with handle := some h, failures := 0 }
    return chunk

/-- Gives up a file that could not be prepared for reading. -/
def abandon (e : IoError) : Work Bool := do
  if let some e ← ask .close then throw (.io e)
  recordFailure e
  return false

/-- Prepares a file just opened: remembers how it begins and goes to where reading begins. -/
def prepare (view : View) (number : Nat) (toEnd : Bool) : Work Bool := do
  let data := view.data number
  if let some e ← ask .readHead then return ← abandon e
  let (head, h) := (Handle.opened number).read data.bytes headSize
  if let some e ← ask .seek then return ← abandon e
  let h := if toEnd then h.seekEnd data.bytes.length else h.seek 0
  update fun f => { f with
    handle := some h, identity := some number, stamp := data.stamp, head
    offset := h.position, pending := [], failures := 0 }
  emit (.opened h.position)
  return true

/-- Opens the file at the path, if there is one. -/
def openFile (view : View) (toEnd : Bool) : Work Bool := do
  let path := (← follower).source.path.text
  let failed (e : IoError) : Work Bool := do
    if e.errno = .noEntry then emit .awaiting else recordFailure e
    return false
  if let some e ← ask .openFile then return ← failed e
  match view.target with
  | .unnameable why => throw why.failure
  | .unreachable e => failed ⟨e, some path⟩
  | .directory _ => failed ⟨.isDirectory, some path⟩
  | .file number => prepare view number toEnd

/-- Reads how the open file begins and returns to the offset. -/
def readHead (view : View) : Work (Except IoError Bytes) := do
  let f ← follower
  match f.handle with
  | none => return .ok []
  | some h =>
    if let some e ← ask .seek then return .error e
    let h := h.seek 0
    update fun f => { f with handle := some h }
    if let some e ← ask .readHead then return .error e
    let (head, h) := h.read (view.data h.number).bytes headSize
    update fun f => { f with handle := some h }
    if let some e ← ask .seek then return .error e
    update fun f => { f with handle := some (h.seek f.offset) }
    return .ok head

/-- How many octets the open file may still give. -/
def remaining (view : View) (f : Follower) : Nat :=
  match f.handle with
  | none => 0
  | some h => h.ahead.length + ((view.data h.number).bytes.length - h.fetched)

/-- Delivers what is left in the open file, in at most `fuel` chunks. -/
def drainChunks (view : View) (take : Taker) : (fuel : Nat) → Work Unit
  | 0 => pure ()
  | fuel + 1 => do
    let chunk ← readChunk view
    if !chunk.isEmpty then
      deliver take chunk
      drainChunks view take fuel

/-- Delivers what is left in the open file, an unfinished last line included. -/
def drain (view : View) (take : Taker) : Work Unit := do
  drainChunks view take (remaining view (← follower) + 1)
  let f ← follower
  if !f.pending.isEmpty then
    deliverLine take f.pending
    update fun f => { f with pending := [] }

/-- What is at the path, asked by its name. -/
def statTarget (view : View) : Work (Except IoError (Nat × Stamp)) := do
  let path := (← follower).source.path.text
  if let some e ← ask .stat then return .error e
  match view.target with
  | .unnameable why => throw why.failure
  | .unreachable e => return .error ⟨e, some path⟩
  | .file n | .directory n => return .ok (n, (view.data n).stamp)

/-- Leaves the file for another one at its path. -/
def rotate (view : View) (take : Taker) : Work Unit := do
  emit (.noticed .rotated)
  drain view take
  close
  emit (.reopened .rotated)

/-- Goes back to the start of a file that begins with `head` now. -/
def restart (stamp : Stamp) (head : Bytes) : Work Unit := do
  emit (.noticed .truncated)
  update fun f => { f with offset := 0, pending := [], stamp, head }
  if let some e ← ask .seek then throw (.io e)
  update fun f => { f with handle := f.handle.map (·.seek 0) }
  emit (.reopened .truncated)

/-- Checks whether the open file is still the one to read; true if the turn is over. -/
def checkRotation (view : View) (take : Taker) : Work Bool := do
  match ← statTarget view with
  | .error e =>
    if e.errno ≠ .noEntry then recordFailure e
    return false
  | .ok (number, stamp) =>
    let f ← follower
    if f.identity ≠ some number then
      rotate view take
      return true
    if f.offset ≤ stamp.size ∧ stamp = f.stamp then return false
    match ← readHead view with
    | .error e =>
      recordFailure e
      return false
    | .ok head =>
      if f.offset ≤ stamp.size ∧ f.head.isPrefixOf head then
        update fun f => { f with stamp, head }
        return false
      restart stamp head
      return true

/-- Reads on in the open file; true if nothing comes. -/
def readOn (view : View) (take : Taker) : Work Bool := do
  let chunk ← readChunk view
  if chunk.isEmpty then return true
  deliver take chunk
  return false

/-- One turn; true if it ends in a wait. -/
def turn (view : View) (take : Taker) : Work Bool := do
  let f ← follower
  if f.handle.isNone then
    let opened ← openFile view (f.firstOpen && !f.source.fromStart)
    update fun f => { f with firstOpen := false }
    if !opened then return true
  else if ← checkRotation view take then return false
  readOn view take

end Work

/-! ### Polls -/

/-- How a poll ends. -/
inductive Ending where
  | waits
  | fails (f : Failure)
  /-- More turns are left to take. -/
  | unfinished

/-- A poll: the run up to its end. -/
structure Poll where
  run : Run
  ending : Ending

namespace Follower

/-- Takes up to some number of turns. -/
def turns (view : View) (take : Taker) : (fuel : Nat) → Run → Poll
  | 0, run => ⟨run, .unfinished⟩
  | fuel + 1, run =>
    match Work.turn view take run with
    | .ok true run => ⟨run, .waits⟩
    | .ok false run => turns view take fuel run
    | .error f run => ⟨run, .fails f⟩

/-- A bound on the turns of a poll.  A file may be read again from its start after each refused look
at how it begins, and twice without one. -/
def turnBound (view : View) (run : Run) : Nat :=
  (3 * run.refusals.looks + 2) * (Handle.blockSize + view.there.length + 1) +
    Work.remaining view run.follower + 2

/-- Works until the next wait. -/
def poll (view : View) (take : Taker) (run : Run) : Poll := turns view take (turnBound view run) run

/-- Ends following: the file is closed. -/
def stop (run : Run) : Run :=
  match (do Work.close; Work.emit .stopped : Work Unit) run with
  | .ok _ run | .error _ run => run

/-- Begins following. -/
def start (source : Source) (limit : Int) : Run :=
  { follower := { source, limit }, refusals := .none, events := [.started] }

end Follower

end LogRelay
