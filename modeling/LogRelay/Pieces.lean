/-!
# Cutting a sequence at a separator

`pieces sep l` cuts `l` at every `sep`, which is dropped: n separators give n + 1 pieces, and the
pieces joined by the separator are the sequence again.  Log files are cut at line feeds and settings
at commas with it.
-/

namespace LogRelay

variable {α : Type} [DecidableEq α]

/-- Puts one more element in front of a cut sequence. -/
def consPiece (sep x : α) : List (List α) → List (List α)
  | [] => if x = sep then [[], []] else [[x]]
  | p :: ps => if x = sep then [] :: p :: ps else (x :: p) :: ps

/-- The parts of a sequence between its separators, empty parts included. -/
def pieces (sep : α) (l : List α) : List (List α) := l.foldr (consPiece sep) [[]]

theorem pieces_nil (sep : α) : pieces sep [] = [[]] := rfl

theorem pieces_cons (sep x : α) (l : List α) :
    pieces sep (x :: l) = consPiece sep x (pieces sep l) :=
  rfl

theorem pieces_ne_nil (sep : α) (l : List α) : pieces sep l ≠ [] := by
  cases l with
  | nil => simp [pieces_nil]
  | cons x l =>
    rw [pieces_cons]
    cases pieces sep l <;> simp only [consPiece] <;> split <;> simp

/-- The part before the first separator and the part after it, if there is one. -/
def cutFirst (sep : α) : List α → Option (List α × List α)
  | [] => none
  | x :: l => if x = sep then some ([], l) else (cutFirst sep l).map fun (a, b) => (x :: a, b)

end LogRelay
