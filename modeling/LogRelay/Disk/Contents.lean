import LogRelay.Disk
import LogRelay.Failure

/-!
# Contents of files

Reading and writing whole files by path, with the failures that come of it.
-/

namespace LogRelay

/-- The failure of naming a path. -/
def Unnameable.failure : Unnameable → Failure
  | .embeddedNul => .embeddedNul
  | .surrogates e => .unencodable e

namespace Disk

/-- Whether a path leads to something; one that cannot be named does not. -/
def isThere (d : Disk) (path : Text) : Bool := (unnameable? path).isNone && d.holds path

/-- The octets of a file. -/
def read (d : Disk) (path : Text) : Except Failure Bytes :=
  match unnameable? path with
  | some u => .error u.failure
  | none =>
    match (d.refusals path).reading, d.openFile path with
    | some e, _ => .error (.io e)
    | none, .error e => .error (.io ⟨e, some path⟩)
    | none, .ok n => .ok (d.file n).bytes

/-- The text of a file that is read as a whole. -/
def readText (d : Disk) (path : Text) : Except Failure Text :=
  match d.read path with
  | .error f => .error f
  | .ok bytes =>
    match Utf8.decodeStrict bytes with
    | .ok t => .ok t.foldReturns
    | .error e => .error (.undecodable e)

/-- Opens the file at a path for writing, by which it is emptied. -/
def openEmptied (d : Disk) (path : Text) : Except IoError Disk :=
  match (d.refusals path).opening, d.write path [] with
  | some e, _ => .error e
  | none, .error e => .error ⟨e, some path⟩
  | none, .ok emptied => .ok emptied

/-- The octets that can be written to a path before that is refused. -/
def writable (d : Disk) (path : Text) (bytes : Bytes) : Bytes :=
  (d.refusals path).writing.elim bytes fun r => bytes.take r.1

/-- Writes octets to a file that has been emptied, until that is refused. -/
def writeOn (d : Disk) (path : Text) (bytes : Bytes) : Disk × Option Failure :=
  match d.write path (d.writable path bytes) with
  | .error e => (d, some (.io ⟨e, some path⟩))
  | .ok written => (written, (d.refusals path).writing.map fun r => .io r.2)

/-- Writes a text to a file.  A text that cannot be encoded leaves the file empty. -/
def writeText (d : Disk) (path t : Text) : Disk × Option Failure :=
  match unnameable? path with
  | some u => (d, some u.failure)
  | none =>
    match d.openEmptied path with
    | .error e => (d, some (.io e))
    | .ok emptied =>
      match Utf8.encode t with
      | .error e => (emptied, some (.unencodable e))
      | .ok bytes => emptied.writeOn path bytes

/-- Writes a text to a file and sets its permissions. -/
def putText (d : Disk) (path t : Text) (mode : Nat) : Disk × Option Failure :=
  match d.writeText path t with
  | (d, some f) => (d, some f)
  | (d, none) =>
    match (d.refusals path).permissions with
    | some e => (d, some (.io e))
    | none => (d.setMode path mode, none)

end Disk

end LogRelay
