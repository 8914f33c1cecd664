import LogRelay.Errno
import LogRelay.Json.Basic
import LogRelay.Path
import LogRelay.Text.System

/-!
# The file system

What the relay can see of the file system: a tree of names and, apart from it, the files themselves,
so that a file that is renamed or removed can still be read by who holds it open.  Every change of a
file gives it a new modification time, and no file number is used twice.
-/

namespace LogRelay

/-- A regular file. -/
structure FileData where
  bytes : Bytes
  mtime : Nat
  mode : Nat := 0o644

/-- What a name stands for. -/
inductive Leaf where
  | file (number : Nat)
  | directory (number : Nat)
  | link (target : Text)

/-- What the system refuses of reading or writing the file at a path as a whole, apart from what the
way to it rules out. -/
structure FileRefusals where
  reading : Option IoError := none
  /-- Opening it for writing, by which it is emptied. -/
  opening : Option IoError := none
  /-- Writing to it, after some octets have been written. -/
  writing : Option (Nat × IoError) := none
  permissions : Option IoError := none

/-- The file system: the names, each with the whole way from the root, and the files by number. -/
structure Disk where
  tree : List (List Text × Leaf)
  files : List (Nat × FileData)
  /-- The least number and time that are not yet used. -/
  next : Nat
  /-- What is refused, by the path that is given. -/
  refusals : Text → FileRefusals := fun _ => {}

/-- Where a path leads. -/
structure Place where
  /-- The way from the root, without links. -/
  way : List Text
  /-- What is there; a place with nothing at it can be written to. -/
  leaf : Option Leaf

namespace Disk

/-- The directory that relative paths begin at. -/
def home : List Text := [[]]

/-- A file system with nothing but the directory that relative paths begin at. -/
def empty : Disk where
  tree := [(home, .directory 1)]
  files := []
  next := 2

/-- How many links a path may lead through. -/
def linkLimit : Nat := 40

/-- How many octets a name may have. -/
def nameLimit : Nat := 255

/-- How many octets a path may have. -/
def pathLimit : Nat := 4095

/-- What is at a place. -/
def leafAt (d : Disk) (way : List Text) : Option Leaf :=
  if way.isEmpty then some (.directory 0) else d.tree.lookup way

/-- The file with a number. -/
def file (d : Disk) (number : Nat) : FileData := (d.files.lookup number).getD ⟨[], 0, 0o644⟩

/-! ### Finding places -/

/-- The count of octets of a name. -/
def octets (t : Text) : Nat := (Text.systemOctets t).length

/-- Follows the parts of a path from a directory on, through at most `links` links. -/
def walk (d : Disk) (links : Nat) (dir : List Text) (parts : List Text) : Except Errno Place :=
  match parts with
  | [] => .ok ⟨dir, d.leafAt dir⟩
  | name :: rest =>
    if name.isEmpty || name = "." then walk d links dir rest
    else if name = ".." then walk d links dir.dropLast rest
    else if nameLimit < octets name then .error .nameTooLong
    else
      let here := dir ++ [name]
      match d.leafAt here with
      | none => if rest.isEmpty then .ok ⟨here, none⟩ else .error .noEntry
      | some (.directory _) => walk d links here rest
      | some (.file n) => if rest.isEmpty then .ok ⟨here, some (.file n)⟩ else .error .notDirectory
      | some (.link target) =>
        match links with
        | 0 => .error .tooManyLinks
        | links + 1 =>
          walk d links (if ("/" : Text).isPrefixOf target then [] else dir)
            (target.split '/' ++ rest)
termination_by (links, parts.length)

/-- The place a path leads to.  Two paths of the same octets are the same. -/
def place (d : Disk) (path : Text) : Except Errno Place :=
  if path.isEmpty then .error .noEntry
  else if pathLimit < octets path then .error .nameTooLong
  else
    d.walk linkLimit (if ("/" : Text).isPrefixOf path then [] else home)
      ((Text.settled path).split '/')

/-- The place of a name itself, which may be that of a link. -/
def namePlace (d : Disk) (path : Text) : Except Errno Place :=
  let p := Path.ofText (Text.settled path)
  match p.parts.getLast? with
  | none => d.place path
  | some name =>
    match d.place (Path.text ⟨p.root, p.parts.dropLast⟩) with
    | .error e => .error e
    | .ok dir => .ok ⟨dir.way ++ [name], d.leafAt (dir.way ++ [name])⟩

/-- Whether a path leads to something. -/
def holds (d : Disk) (path : Text) : Bool :=
  match d.place path with
  | .ok p => p.leaf.isSome
  | .error _ => false

/-- The number of the file a path leads to, for reading. -/
def openFile (d : Disk) (path : Text) : Except Errno Nat :=
  match d.place path with
  | .error e => .error e
  | .ok ⟨_, none⟩ => .error .noEntry
  | .ok ⟨_, some (.file n)⟩ => .ok n
  | .ok ⟨_, some _⟩ => .error .isDirectory

/-! ### Changing files -/

/-- Puts something at a place, or nothing. -/
def setLeaf (d : Disk) (way : List Text) (leaf : Option Leaf) : Disk :=
  let others := d.tree.filter fun entry => entry.1 != way
  match leaf with
  | some l => { d with tree := (way, l) :: others }
  | none => { d with tree := others }

/-- Gives a file new contents. -/
def setFile (d : Disk) (number : Nat) (data : FileData) : Disk :=
  { d with files := (number, data) :: d.files.filter fun f => f.1 != number }

/-- Gives a file new octets and a new modification time, or keeps the time. -/
def overwrite (d : Disk) (number : Nat) (bytes : Bytes) (keepTime : Bool := false) : Disk :=
  let old := d.file number
  let time := if keepTime then old.mtime else d.next
  { d.setFile number { old with bytes, mtime := time } with next := d.next + 1 }

/-- Creates a file at a place. -/
def create (d : Disk) (way : List Text) (bytes : Bytes) : Disk :=
  let d' := (d.setFile d.next ⟨bytes, d.next + 1, 0o644⟩).setLeaf way (some (.file d.next))
  { d' with next := d.next + 2 }

/-- Writes a file: in place if it is there, else a new one. -/
def write (d : Disk) (path : Text) (bytes : Bytes) (keepTime : Bool := false) : Except Errno Disk :=
  match d.place path with
  | .error e => .error e
  | .ok ⟨way, none⟩ => .ok (d.create way bytes)
  | .ok ⟨_, some (.file n)⟩ => .ok (d.overwrite n bytes keepTime)
  | .ok ⟨_, some _⟩ => .error .isDirectory

/-- Writes behind the end of a file, which is created if it is missing. -/
def append (d : Disk) (path : Text) (bytes : Bytes)
    (keepTime : Bool := false) : Except Errno Disk :=
  match d.place path with
  | .error e => .error e
  | .ok ⟨way, none⟩ => .ok (d.create way bytes)
  | .ok ⟨_, some (.file n)⟩ => .ok (d.overwrite n ((d.file n).bytes ++ bytes) keepTime)
  | .ok ⟨_, some _⟩ => .error .isDirectory

/-- Gives a file the modification time of another one. -/
def copyTime (d : Disk) (source number : Nat) : Disk :=
  d.setFile number { d.file number with mtime := (d.file source).mtime }

/-- Puts a new file in the place of a name; it may take over the modification time of the old
one. -/
def replace (d : Disk) (path : Text) (bytes : Bytes)
    (keepTime : Bool := false) : Except Errno Disk :=
  match d.namePlace path with
  | .error e => .error e
  | .ok ⟨_, some (.directory _)⟩ => .error .isDirectory
  | .ok ⟨way, _⟩ =>
    match keepTime, d.openFile path with
    | true, .ok old => .ok ((d.create way bytes).copyTime old d.next)
    | _, _ => .ok (d.create way bytes)

/-- Cuts a file to a size, or fills it with zeros up to it. -/
def truncate (d : Disk) (path : Text) (size : Nat) (keepTime : Bool := false) : Except Errno Disk :=
  match d.openFile path with
  | .error e => .error e
  | .ok n =>
    let bytes := (d.file n).bytes
    .ok (d.overwrite n (bytes.take size ++ List.replicate (size - bytes.length) 0) keepTime)

/-- Sets the permissions of a file. -/
def setMode (d : Disk) (path : Text) (mode : Nat) : Disk :=
  match d.openFile path with
  | .ok n => d.setFile n { d.file n with mode }
  | .error _ => d

/-! ### Changing names -/

/-- Moves a name and everything below it. -/
def rename (d : Disk) (path target : Text) : Except Errno Disk :=
  match d.namePlace path, d.namePlace target with
  | .error e, _ | _, .error e => .error e
  | .ok ⟨_, none⟩, _ => .error .noEntry
  | .ok ⟨before, some _⟩, .ok ⟨after, _⟩ =>
    if before = after then .ok d
    else
      let kept := d.tree.filter fun entry => entry.1 != after
      .ok { d with tree := kept.map fun (way, leaf) =>
        if before.isPrefixOf way then (after ++ way.drop before.length, leaf) else (way, leaf) }

/-- Removes a name that stands for no directory. -/
def remove (d : Disk) (path : Text) : Except Errno Disk :=
  match d.namePlace path with
  | .error e => .error e
  | .ok ⟨_, none⟩ => .error .noEntry
  | .ok ⟨_, some (.directory _)⟩ => .error .isDirectory
  | .ok ⟨way, some _⟩ => .ok (d.setLeaf way none)

/-- Removes a directory. -/
def removeDirectory (d : Disk) (path : Text) : Except Errno Disk :=
  match d.namePlace path with
  | .error e => .error e
  | .ok ⟨_, none⟩ => .error .noEntry
  | .ok ⟨way, some (.directory _)⟩ =>
    if d.tree.any fun entry => entry.1 != way && way.isPrefixOf entry.1 then .error .notEmpty
    else .ok (d.setLeaf way none)
  | .ok _ => .error .notDirectory

/-- Makes the missing directories along some parts of a path. -/
def makeDirectoriesFrom (d : Disk) (done : Path) : List Text → Except Errno Disk
  | [] => .ok d
  | name :: rest =>
    let here : Path := ⟨done.root, done.parts ++ [name]⟩
    match d.place here.text with
    | .error e => .error e
    | .ok ⟨way, none⟩ =>
      let d' := { d.setLeaf way (some (.directory d.next)) with next := d.next + 1 }
      d'.makeDirectoriesFrom here rest
    | .ok ⟨_, some (.file _)⟩ => .error .alreadyExists
    | .ok _ => d.makeDirectoriesFrom here rest

/-- Makes a directory and the missing ones above it. -/
def makeDirectories (d : Disk) (path : Path) : Except Errno Disk :=
  d.makeDirectoriesFrom ⟨path.root, []⟩ path.parts

/-- Makes the missing directories above a path. -/
def makeParents (d : Disk) (path : Text) : Except Errno Disk :=
  let p := Path.ofText path
  d.makeDirectories ⟨p.root, p.parts.dropLast⟩

/-- Makes a name that is a link. -/
def makeLink (d : Disk) (path target : Text) : Except Errno Disk :=
  match d.namePlace path with
  | .error e => .error e
  | .ok ⟨_, some _⟩ => .error .alreadyExists
  | .ok ⟨way, none⟩ => .ok (d.setLeaf way (some (.link (Text.settled target))))

end Disk

/-- The failure of naming a path that no file can have. -/
inductive Unnameable where
  | embeddedNul
  | surrogates (e : Utf8.EncodeError)

/-- Whether a text can be handed to the operating system as a path. -/
def unnameable? (path : Text) : Option Unnameable :=
  match Text.firstUnstorable path with
  | some e => some (.surrogates e)
  | none => if path.contains ('\x00' : CodePoint) then some .embeddedNul else none

end LogRelay
