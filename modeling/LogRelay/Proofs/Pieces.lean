import LogRelay.Pieces
import Mathlib.Data.List.Basic

/-!
# Laws of cutting

A cut sequence is known by what it is made of: its pieces hold no separator, and with a separator
behind each but the last they are the sequence again (`pieces_terminated_append`,
`flatMap_dropLast_append_getLastD`).  Cutting is continued across an append (`pieces_append`): all
pieces but the last stand, and the last one is cut together with what follows it, unless that begins
with a separator (`pieces_append_cons`).
-/

namespace LogRelay

variable {α : Type} [DecidableEq α]

/-! ### One element at a time -/

theorem consPiece_sep (sep : α) {ps : List (List α)} (h : ps ≠ []) :
    consPiece sep sep ps = [] :: ps := by
  cases ps with
  | nil => exact absurd rfl h
  | cons p ps => simp [consPiece]

theorem consPiece_of_ne {sep x : α} (h : x ≠ sep) (p : List α) (ps : List (List α)) :
    consPiece sep x (p :: ps) = (x :: p) :: ps := by
  simp [consPiece, h]

theorem pieces_cons_sep (sep : α) (l : List α) : pieces sep (sep :: l) = [] :: pieces sep l := by
  rw [pieces_cons, consPiece_sep sep (pieces_ne_nil sep l)]

/-- An element that does not cut goes to the front of the first piece. -/
theorem exists_pieces_cons_of_ne {sep x : α} (h : x ≠ sep) (l : List α) :
    ∃ p ps, pieces sep l = p :: ps ∧ pieces sep (x :: l) = (x :: p) :: ps := by
  obtain ⟨p, ps, hp⟩ := List.exists_cons_of_ne_nil (pieces_ne_nil sep l)
  refine ⟨p, ps, hp, ?_⟩
  rw [pieces_cons, hp, consPiece_of_ne h]

/-! ### What the pieces are -/

theorem notMem_of_mem_pieces {sep : α} {l p : List α} (h : p ∈ pieces sep l) : sep ∉ p := by
  induction l generalizing p with
  | nil =>
    rw [pieces_nil, List.mem_singleton] at h
    rw [h]
    exact List.not_mem_nil
  | cons x l ih =>
    by_cases hx : x = sep
    · rw [hx, pieces_cons_sep, List.mem_cons] at h
      obtain rfl | h := h
      · exact List.not_mem_nil
      · exact ih h
    · obtain ⟨q, qs, hq, hc⟩ := exists_pieces_cons_of_ne hx l
      rw [hc, List.mem_cons] at h
      obtain rfl | h := h
      · rw [List.mem_cons, not_or]
        exact ⟨Ne.symm hx, ih (hq ▸ List.mem_cons_self)⟩
      · exact ih (hq ▸ List.mem_cons_of_mem q h)

theorem mem_of_mem_pieces {sep x : α} {l p : List α} (h : p ∈ pieces sep l)
    (hx : x ∈ p) : x ∈ l := by
  induction l generalizing p with
  | nil =>
    rw [pieces_nil, List.mem_singleton] at h
    exact h ▸ hx
  | cons y l ih =>
    by_cases hy : y = sep
    · rw [hy, pieces_cons_sep, List.mem_cons] at h
      obtain rfl | h := h
      · cases hx
      · exact List.mem_cons_of_mem _ (ih h hx)
    · obtain ⟨q, qs, hq, hc⟩ := exists_pieces_cons_of_ne hy l
      rw [hc, List.mem_cons] at h
      obtain rfl | h := h
      · obtain rfl | hx := List.mem_cons.1 hx
        · exact List.mem_cons_self
        · exact List.mem_cons_of_mem _ (ih (hq ▸ List.mem_cons_self) hx)
      · exact List.mem_cons_of_mem _ (ih (hq ▸ List.mem_cons_of_mem q h) hx)

theorem pieces_of_notMem {sep : α} {l : List α} (h : sep ∉ l) : pieces sep l = [l] := by
  induction l with
  | nil => rfl
  | cons x l ih =>
    rw [List.mem_cons, not_or] at h
    rw [pieces_cons, ih h.2, consPiece_of_ne (Ne.symm h.1)]

theorem pieces_append_sep {sep : α} {l : List α} (h : sep ∉ l) (r : List α) :
    pieces sep (l ++ sep :: r) = l :: pieces sep r := by
  induction l with
  | nil => exact pieces_cons_sep sep r
  | cons x l ih =>
    rw [List.mem_cons, not_or] at h
    rw [List.cons_append, pieces_cons, ih h.2, consPiece_of_ne (Ne.symm h.1)]

/-- Parts without a separator, each ended by one, are the pieces in front of what is behind them. -/
theorem pieces_terminated_append {sep : α} {ls : List (List α)}
    (h : ∀ l ∈ ls, sep ∉ l) (r : List α) :
    pieces sep (ls.flatMap (· ++ [sep]) ++ r) = ls ++ pieces sep r := by
  induction ls with
  | nil => rfl
  | cons l ls ih =>
    have hl := h l List.mem_cons_self
    have hls := ih fun m hm => h m (List.mem_cons_of_mem l hm)
    rw [List.flatMap_cons, List.append_assoc, List.append_assoc, List.singleton_append,
      pieces_append_sep hl, hls, List.cons_append]

/-- Cutting is the splitting of lists. -/
theorem pieces_eq_splitOn (sep : α) (l : List α) : pieces sep l = l.splitOn sep := by
  induction l with
  | nil => rfl
  | cons x l ih =>
    rw [List.splitOn_cons_eq_if_modifyHead, ← ih]
    by_cases hx : x = sep
    · rw [hx, pieces_cons_sep, if_pos (beq_self_eq_true sep)]
    · obtain ⟨p, ps, hp, hc⟩ := exists_pieces_cons_of_ne hx l
      have hb : ¬ (x == sep) = true := by simpa using hx
      rw [hc, hp, if_neg hb, List.modifyHead_cons]

/-- The pieces joined are the sequence again. -/
theorem intercalate_pieces (sep : α) (l : List α) : [sep].intercalate (pieces sep l) = l := by
  rw [pieces_eq_splitOn]
  exact List.intercalate_splitOn sep

/-- What does not cut goes to the front of the first piece. -/
theorem pieces_append_of_notMem {sep : α} {a l p : List α} {ps : List (List α)} (h : sep ∉ a)
    (hl : pieces sep l = p :: ps) : pieces sep (a ++ l) = (a ++ p) :: ps := by
  induction a with
  | nil => exact hl
  | cons x a ih =>
    rw [List.mem_cons, not_or] at h
    rw [List.cons_append, pieces_cons, ih h.2, consPiece_of_ne (Ne.symm h.1), List.cons_append]

/-- The place behind which an element does not come again. -/
theorem exists_eq_append_cons_of_mem {β : Type} {x : β} {l : List β} (h : x ∈ l) :
    ∃ a b, l = a ++ x :: b ∧ x ∉ b := by
  obtain ⟨b, a, hreverse, hb⟩ := List.eq_append_cons_of_mem (List.mem_reverse.2 h)
  refine ⟨a.reverse, b.reverse, ?_, mt List.mem_reverse.1 hb⟩
  rw [← List.reverse_reverse l, hreverse]
  simp

/-! ### The first separator -/

theorem cutFirst_eq_none_iff {sep : α} {l : List α} : cutFirst sep l = none ↔ sep ∉ l := by
  induction l with
  | nil => simp [cutFirst]
  | cons x l ih =>
    by_cases hx : x = sep
    · simp [cutFirst, hx]
    · simp [cutFirst, hx, ih, Ne.symm hx]

theorem cutFirst_append {sep : α} {l : List α} (h : sep ∉ l) (r : List α) :
    cutFirst sep (l ++ sep :: r) = some (l, r) := by
  induction l with
  | nil => simp [cutFirst]
  | cons x l ih =>
    rw [List.mem_cons, not_or] at h
    simp [cutFirst, Ne.symm h.1, ih h.2]

/-! ### All pieces but the last, and the last -/

theorem dropLast_append_getLastD_pieces (sep : α) (l : List α) :
    (pieces sep l).dropLast ++ [(pieces sep l).getLast?.getD []] = pieces sep l := by
  have h := pieces_ne_nil sep l
  rw [List.getLast?_eq_some_getLast h, Option.getD_some]
  exact List.dropLast_append_getLast h

/-- The pieces, each but the last with its separator, are the sequence. -/
theorem flatMap_dropLast_append_getLastD (sep : α) (l : List α) :
    (pieces sep l).dropLast.flatMap (· ++ [sep]) ++ (pieces sep l).getLast?.getD [] = l := by
  induction l with
  | nil => rfl
  | cons x l ih =>
    by_cases hx : x = sep
    · obtain ⟨p, ps, hp⟩ := List.exists_cons_of_ne_nil (pieces_ne_nil sep l)
      rw [hx, pieces_cons_sep, hp]
      rw [hp] at ih
      simpa using ih
    · obtain ⟨p, ps, hp, hc⟩ := exists_pieces_cons_of_ne hx l
      rw [hc]
      rw [hp] at ih
      cases ps with
      | nil => simpa using ih
      | cons q qs => simpa using ih

theorem pieces_append (sep : α) (a b : List α) :
    pieces sep (a ++ b) =
      (pieces sep a).dropLast ++ pieces sep ((pieces sep a).getLast?.getD [] ++ b) := by
  have hmem : ∀ l ∈ (pieces sep a).dropLast, sep ∉ l :=
    fun l hl => notMem_of_mem_pieces (List.dropLast_subset _ hl)
  calc pieces sep (a ++ b)
      = pieces sep ((pieces sep a).dropLast.flatMap (· ++ [sep]) ++
          ((pieces sep a).getLast?.getD [] ++ b)) := by
        rw [← List.append_assoc, flatMap_dropLast_append_getLastD]
    _ = _ := pieces_terminated_append hmem _

theorem pieces_append_cons (sep : α) (a b : List α) :
    pieces sep (a ++ sep :: b) = pieces sep a ++ pieces sep b := by
  have hlast : (pieces sep a).getLast?.getD [] ∈ pieces sep a := by
    rw [List.getLast?_eq_some_getLast (pieces_ne_nil sep a)]
    exact List.getLast_mem _
  calc pieces sep (a ++ sep :: b)
      = (pieces sep a).dropLast ++ [(pieces sep a).getLast?.getD []] ++ pieces sep b := by
        rw [pieces_append, pieces_append_sep (notMem_of_mem_pieces hlast), List.append_assoc,
          List.singleton_append]
    _ = pieces sep a ++ pieces sep b := by rw [dropLast_append_getLastD_pieces]

end LogRelay
