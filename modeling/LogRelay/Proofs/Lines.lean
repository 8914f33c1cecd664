import LogRelay.Follower.Basic
import LogRelay.Proofs.Pieces

/-!
# Lines of octets

Octets are cut into the lines that are ended (`Lines.complete`) and what stands behind the last line
feed (`Lines.unfinished`).  `Lines.Cut` says the same without cutting: the parts hold no line feed,
and put together again, with a line feed behind each line, they are the octets.
-/

namespace LogRelay

namespace Lines

/-- The lines that are ended, without their line feeds. -/
def complete (bytes : Bytes) : List Bytes := (pieces 10 bytes).dropLast

/-- What stands behind the last line feed. -/
def unfinished (bytes : Bytes) : Bytes := (pieces 10 bytes).getLast?.getD []

/-- All lines; the unfinished one is a line if there is something in it. -/
def all (bytes : Bytes) : List Bytes :=
  complete bytes ++ if unfinished bytes = [] then [] else [unfinished bytes]

/-- Octets that are some lines, each with its line feed, and a rest without one. -/
structure Cut (bytes : Bytes) (lines : List Bytes) (rest : Bytes) : Prop where
  lines_clean : ∀ l ∈ lines, 10 ∉ l
  rest_clean : 10 ∉ rest
  eq : bytes = lines.flatMap (· ++ [10]) ++ rest

/-! ### The parts -/

theorem notMem_of_mem_complete {bytes l : Bytes} (h : l ∈ complete bytes) : 10 ∉ l :=
  notMem_of_mem_pieces (List.dropLast_subset _ h)

theorem notMem_unfinished (bytes : Bytes) : 10 ∉ unfinished bytes := by
  have h : unfinished bytes ∈ pieces 10 bytes := by
    rw [← dropLast_append_getLastD_pieces]
    exact List.mem_append_right _ (List.mem_singleton.2 rfl)
  exact notMem_of_mem_pieces h

theorem cut_complete_unfinished (bytes : Bytes) :
    Cut bytes (complete bytes) (unfinished bytes) where
  lines_clean _ h := notMem_of_mem_complete h
  rest_clean := notMem_unfinished bytes
  eq := (flatMap_dropLast_append_getLastD 10 bytes).symm

/-- There is one way to cut octets into lines. -/
theorem cut_iff {bytes : Bytes} {lines : List Bytes} {rest : Bytes} :
    Cut bytes lines rest ↔ lines = complete bytes ∧ rest = unfinished bytes := by
  constructor
  · intro h
    have hp : pieces 10 bytes = lines ++ [rest] := by
      rw [h.eq, pieces_terminated_append h.lines_clean, pieces_of_notMem h.rest_clean]
    simp [complete, unfinished, hp]
  · rintro ⟨rfl, rfl⟩
    exact cut_complete_unfinished bytes

@[simp] theorem complete_nil : complete [] = [] := rfl

@[simp] theorem unfinished_nil : unfinished [] = [] := rfl

theorem complete_of_notMem {bytes : Bytes} (h : 10 ∉ bytes) : complete bytes = [] := by
  rw [complete, pieces_of_notMem h]
  rfl

theorem unfinished_of_notMem {bytes : Bytes} (h : 10 ∉ bytes) : unfinished bytes = bytes := by
  rw [unfinished, pieces_of_notMem h]
  rfl

/-! ### More octets -/

theorem complete_append (a b : Bytes) :
    complete (a ++ b) = complete a ++ complete (unfinished a ++ b) := by
  unfold complete unfinished
  rw [pieces_append, List.dropLast_append_of_ne_nil (pieces_ne_nil _ _)]

theorem unfinished_append (a b : Bytes) : unfinished (a ++ b) = unfinished (unfinished a ++ b) := by
  have h := pieces_ne_nil 10 (unfinished a ++ b)
  unfold unfinished at h ⊢
  rw [pieces_append, List.getLast?_append_of_ne_nil _ h]

theorem all_append (a b : Bytes) : all (a ++ b) = complete a ++ all (unfinished a ++ b) := by
  rw [all, all, complete_append, unfinished_append, List.append_assoc]

end Lines

end LogRelay
