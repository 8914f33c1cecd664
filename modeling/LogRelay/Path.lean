import LogRelay.Text.Basic

/-!
# Paths

A path is kept in normal form: the kind of its root and its parts, without empty parts and without
parts that are a single dot.  A part `..` stays, since what it leads to depends on links.
-/

namespace LogRelay

/-- How a path begins. -/
inductive Root where
  /-- The path is relative. -/
  | none
  | slash
  /-- Exactly two slashes, which a system may give a meaning of their own. -/
  | doubleSlash
deriving DecidableEq

/-- A path in normal form. -/
structure Path where
  root : Root
  parts : List Text
deriving DecidableEq

namespace Path

/-- The root a text begins with, by its leading slashes. -/
def rootOf (t : Text) : Root :=
  match (t.takeWhile (· == ('/' : CodePoint))).length with
  | 0 => .none
  | 2 => .doubleSlash
  | _ => .slash

/-- The path a text names. -/
def ofText (t : Text) : Path :=
  ⟨rootOf t, (t.split '/').filter fun part => part != [] && part != Text.ofString "."⟩

instance : Coe String Path := ⟨fun s => ofText (Text.ofString s)⟩

/-- The text of a root. -/
def Root.text : Root → Text
  | .none => []
  | .slash => "/"
  | .doubleSlash => "//"

/-- The text of a path; the empty relative path is a dot. -/
def text (p : Path) : Text :=
  match p.root, p.parts with
  | .none, [] => "."
  | root, parts => Root.text root ++ Text.joinWith "/" parts

/-- A path inside a directory; an absolute path is not changed by it. -/
def join (dir inner : Path) : Path :=
  match inner.root with
  | .none => ⟨dir.root, dir.parts ++ inner.parts⟩
  | _ => inner

end Path

end LogRelay
