import LogRelay.Follower.Handle
import Mathlib.Data.List.Basic
import Mathlib.Data.List.TakeDrop
import Mathlib.Data.List.Infix

/-!
# What a handle reads

`h.At bytes p` says that the handle stands at offset `p` of a file that holds `bytes`, with a window
that holds what the file holds there.  Of such a handle nothing but the offset matters: it reads the
octets from there on (`At.read_fst`), moves to the end of what it read (`At.read_snd`) or to where
it is sent (`At.seek`), and is not disturbed when octets are added to the file (`At.mono`).

Of any handle, `left` counts the octets that it may still give, and `Fresh` says that none of them
lies behind the end of the file.
-/

namespace LogRelay

namespace Handle

/-- The handle stands at offset `p`, and its window holds what the file holds in front of
`fetched`. -/
structure At (h : Handle) (bytes : Bytes) (p : Nat) : Prop where
  taken_le : h.taken ≤ h.window.length
  window_le : h.window.length ≤ h.fetched
  window_eq : bytes.drop (h.fetched - h.window.length) = h.window ++ bytes.drop h.fetched
  position_eq : h.position = p

variable {h : Handle} {bytes : Bytes} {p : Nat}

/-! ### Where a handle stands -/

theorem length_ahead (h : Handle) : h.ahead.length = h.window.length - h.taken := by
  simp [ahead]

/-- A handle without a window stands where it has fetched to. -/
theorem at_fresh (number fetched : Nat) (bytes : Bytes) :
    At ⟨number, fetched, [], 0⟩ bytes fetched where
  taken_le := le_rfl
  window_le := Nat.zero_le _
  window_eq := rfl
  position_eq := rfl

theorem at_opened (number : Nat) (bytes : Bytes) : At (opened number) bytes 0 :=
  at_fresh number 0 bytes

/-- What a handle of a file that holds `bytes` reads next: what is ahead, and what has not been
fetched. -/
def rest (h : Handle) (bytes : Bytes) : Bytes := h.ahead ++ bytes.drop h.fetched

theorem At.rest_eq (ha : At h bytes p) : h.rest bytes = bytes.drop p := by
  have hw := ha.window_le
  have ht := ha.taken_le
  have hp : p = h.fetched - h.window.length + h.taken := by
    rw [← ha.position_eq, position, length_ahead]
    omega
  rw [rest, hp, ← List.drop_drop, ha.window_eq, List.drop_append_of_le_length ht, ahead]

/-- Octets that are added to the file leave the window as it is. -/
theorem At.mono {more : Bytes} (ha : At h bytes p) (hb : bytes <+: more) : At h more p where
  taken_le := ha.taken_le
  window_le := ha.window_le
  window_eq := by
    obtain ⟨added, rfl⟩ := hb
    have hw := ha.window_le
    obtain he | hl : h.window = [] ∨ h.fetched ≤ bytes.length := by
      by_cases hn : h.window.length = 0
      · exact .inl (List.length_eq_zero_iff.1 hn)
      · have hlen := congrArg List.length ha.window_eq
        simp only [List.length_drop, List.length_append] at hlen
        exact .inr (by omega)
    · simp [he]
    · rw [List.drop_append_of_le_length (by omega), ha.window_eq, List.drop_append_of_le_length hl,
        List.append_assoc]
  position_eq := ha.position_eq

/-! ### Moving -/

theorem At.seek (ha : At h bytes p) (target : Nat) : At (h.seek target) bytes target := by
  unfold Handle.seek
  split
  · rename_i hin
    simp only [Bool.and_eq_true, decide_eq_true_eq] at hin
    obtain ⟨⟨-, hfrom⟩, hto⟩ := hin
    unfold windowStart at hfrom
    have hw := ha.window_le
    refine ⟨?_, hw, ha.window_eq, ?_⟩
    · simp only [windowStart]
      omega
    · simp only [position, length_ahead, windowStart]
      omega
  · exact at_fresh _ _ _

theorem at_seekEnd (h : Handle) (bytes : Bytes) (size : Nat) : At (h.seekEnd size) bytes size :=
  at_fresh _ _ _

@[simp] theorem number_seek (h : Handle) (target : Nat) : (h.seek target).number = h.number := by
  unfold seek
  split <;> rfl

@[simp] theorem number_opened (number : Nat) : (opened number).number = number := rfl

/-! ### Reading -/

@[simp] theorem number_read (h : Handle) (bytes : Bytes) (count : Nat) :
    (h.read bytes count).2.number = h.number := by
  unfold read
  split
  · rfl
  · dsimp only
    split <;> rfl

theorem read_fst (h : Handle) (bytes : Bytes) (count : Nat) :
    (h.read bytes count).1 = (h.rest bytes).take count := by
  unfold read rest
  split
  · rename_i hc
    exact (List.take_append_of_le_length hc).symm
  · rename_i hc
    rw [List.take_append, List.take_of_length_le (by omega)]

theorem rest_read (h : Handle) (bytes : Bytes) (count : Nat) :
    (h.read bytes count).2.rest bytes = (h.rest bytes).drop count := by
  unfold read rest
  split
  · rename_i hc
    rw [List.drop_append_of_le_length hc, ahead, ahead, List.drop_drop]
  · rename_i hc
    have hdrop : (h.ahead ++ bytes.drop h.fetched).drop count =
        (bytes.drop h.fetched).drop (count - h.ahead.length) := by
      rw [List.drop_append, List.drop_of_length_le (by omega), List.nil_append]
    rw [hdrop]
    dsimp only
    set need := count - h.ahead.length
    split
    · -- the last block is kept, and what it holds behind the octets that were needed is still to
      -- be read
      rename_i hk
      set behind := (bytes.drop h.fetched).drop (need - need % blockSize) with hbehind
      have hblock : behind.drop (behind.take blockSize).length = behind.drop blockSize := by
        rw [List.length_take, List.drop_eq_drop_iff]
        omega
      have hneed : need - need % blockSize + need % blockSize = need :=
        Nat.sub_add_cancel (Nat.mod_le _ _)
      rw [ahead, ← List.drop_drop, ← List.drop_drop, ← hbehind,
        hblock, ← List.drop_append_of_le_length hk.2, List.take_append_drop, hbehind,
        List.drop_drop, hneed]
    · have hfound : (bytes.drop h.fetched).drop ((bytes.drop h.fetched).take need).length =
          (bytes.drop h.fetched).drop need := by
        rw [List.length_take, List.drop_eq_drop_iff]
        omega
      rw [← List.drop_drop, hfound]
      rfl

theorem At.read_fst (ha : At h bytes p) (count : Nat) :
    (h.read bytes count).1 = (bytes.drop p).take count := by
  rw [Handle.read_fst, ha.rest_eq]

/-- Reading from a block leaves the handle behind what was read. -/
theorem At.read_snd (ha : At h bytes p) (count : Nat) :
    At (h.read bytes count).2 bytes (p + (h.read bytes count).1.length) := by
  have hw := ha.window_le
  have ht := ha.taken_le
  have hp : p = h.fetched - h.ahead.length := ha.position_eq.symm
  have hl := length_ahead h
  rw [Handle.read_fst, rest]
  unfold Handle.read
  split
  · rename_i hc
    refine ⟨?_, hw, ha.window_eq, ?_⟩
    · show h.taken + count ≤ h.window.length
      omega
    · simp only [position, ahead, List.length_drop, List.length_take, List.length_append] at *
      omega
  · rename_i hc
    dsimp only
    split
    · -- the last block is kept: it is what the file holds in front of the new end
      rename_i hk
      set need := count - h.ahead.length with hneed
      set block :=
        ((bytes.drop h.fetched).drop (need - need % blockSize)).take blockSize with hblock
      have hstart : h.fetched + (need - need % blockSize) + block.length - block.length =
          h.fetched + (need - need % blockSize) := Nat.add_sub_cancel _ _
      have hmod : need % blockSize ≤ need := Nat.mod_le _ _
      have hfound : need ≤ (bytes.drop h.fetched).length := by
        have := hk.2
        rw [hblock, List.length_take, List.length_drop] at this
        omega
      refine ⟨hk.2, Nat.le_add_left _ _, ?_, ?_⟩
      · rw [hstart, ← List.drop_drop, ← List.drop_drop, ← List.drop_drop]
        exact List.prefix_append_drop (List.take_prefix _ _)
      · rw [position, length_ahead]
        simp only [List.length_take, List.length_append]
        omega
    · have := at_fresh h.number
        (h.fetched + ((bytes.drop h.fetched).take (count - h.ahead.length)).length) bytes
      convert this using 1
      simp only [List.length_take, List.length_append, List.length_drop]
      omega

/-- A read of whole blocks that finds nothing leaves nothing in the window, and the handle at the
end. -/
theorem read_nothing {count : Nat} (hc : 0 < count) (hb : count % blockSize = 0)
    (hnil : (h.read bytes count).1 = []) :
    h.ahead = [] ∧ bytes.length ≤ h.fetched ∧
    (h.read bytes count).2 = ⟨h.number, h.fetched, [], 0⟩ := by
  have hempty : h.ahead ++ bytes.drop h.fetched = [] := by
    rw [Handle.read_fst, List.take_eq_nil_iff] at hnil
    exact hnil.resolve_left (by omega)
  obtain ⟨hahead, hrest⟩ := List.append_eq_nil_iff.1 hempty
  have hnone : ¬ count ≤ h.ahead.length := by
    rw [hahead]
    exact Nat.not_le.2 hc
  refine ⟨hahead, List.drop_eq_nil_iff.1 hrest, ?_⟩
  unfold Handle.read
  rw [if_neg hnone]
  simp only [hahead, hrest, List.length_nil, Nat.sub_zero, hb, Nat.lt_irrefl, false_and, if_false,
    List.take_nil, Nat.add_zero]

/-- A handle that finds nothing stands where it stood, whatever the file holds by now. -/
theorem At.read_nothing (ha : At h bytes p) {count : Nat} (hc : 0 < count)
    (hb : count % blockSize = 0)
    (hnil : (h.read bytes count).1 = []) (more : Bytes) : At (h.read bytes count).2 more p := by
  obtain ⟨hahead, -, hafter⟩ := Handle.read_nothing hc hb hnil
  have hp : h.fetched = p := by
    rw [← ha.position_eq, position, hahead]
    rfl
  rw [hafter, hp]
  exact at_fresh _ _ _

/-! ### What is left -/

/-- How many octets the handle may still give. -/
def left (h : Handle) (bytes : Bytes) : Nat := h.ahead.length + (bytes.length - h.fetched)

/-- Nothing in the window lies behind the end of the file. -/
def Fresh (h : Handle) (bytes : Bytes) : Prop :=
  h.window = [] ∨ (h.window.length ≤ h.fetched ∧ h.fetched ≤ bytes.length)

/-- The window is not longer than a block. -/
def Narrow (h : Handle) : Prop := h.window.length ≤ blockSize

theorem length_rest (h : Handle) (bytes : Bytes) : (h.rest bytes).length = h.left bytes := by
  simp [rest, left]

theorem left_le (hn : h.Narrow) : h.left bytes ≤ blockSize + bytes.length := by
  have hlen := length_ahead h
  unfold Narrow at hn
  unfold left
  omega

theorem narrow_opened (number : Nat) : (opened number).Narrow := Nat.zero_le _

theorem fresh_opened (number : Nat) (bytes : Bytes) : (opened number).Fresh bytes := .inl rfl

theorem Narrow.read (hn : h.Narrow) (bytes : Bytes) (count : Nat) :
    (h.read bytes count).2.Narrow := by
  unfold Handle.read
  split
  · exact hn
  · dsimp only
    split
    · exact List.length_take_le _ _
    · exact Nat.zero_le _

theorem left_read (h : Handle) (bytes : Bytes) (count : Nat) :
    (h.read bytes count).2.left bytes + (h.read bytes count).1.length = h.left bytes := by
  have hlen := length_ahead h
  unfold Handle.read
  split
  · simp only [left, ahead, List.length_drop, List.length_take] at *
    omega
  · dsimp only
    split
    · rename_i hk
      have hmod : (count - h.ahead.length) % blockSize ≤ count - h.ahead.length := Nat.mod_le _ _
      simp only [left, ahead, List.length_drop, List.length_take, List.length_append] at *
      omega
    · simp only [left, ahead, List.length_drop, List.length_take, List.length_append, List.drop_nil,
        List.length_nil] at *
      omega

/-- The window that is kept of a read beyond the old one is taken from the file as it is. -/
theorem fresh_read (h : Handle) {count : Nat} (hc : h.ahead.length < count) :
    (h.read bytes count).2.Fresh bytes := by
  unfold Handle.read
  rw [if_neg (by omega)]
  dsimp only
  split
  · rename_i hk
    refine .inr ⟨Nat.le_add_left _ _, ?_⟩
    simp only [List.length_take, List.length_drop] at hk ⊢
    omega
  · exact .inl rfl

theorem Fresh.read (hf : h.Fresh bytes) (count : Nat) : (h.read bytes count).2.Fresh bytes := by
  by_cases hc : h.ahead.length < count
  · exact fresh_read h hc
  · unfold Handle.read
    rw [if_pos (by omega)]
    exact hf

theorem Narrow.fresh_read (hn : h.Narrow) {count : Nat} (hc : blockSize < count) :
    (h.read bytes count).2.Fresh bytes := by
  have hlen := length_ahead h
  unfold Narrow at hn
  apply Handle.fresh_read
  omega

theorem Narrow.seek (hn : h.Narrow) (target : Nat) : (h.seek target).Narrow := by
  unfold Handle.seek
  split
  · exact hn
  · exact Nat.zero_le _

theorem Fresh.seek (hf : h.Fresh bytes) (target : Nat) : (h.seek target).Fresh bytes := by
  unfold Handle.seek
  split
  · exact hf
  · exact .inl rfl

/-- Back at the start, nothing but what the file holds is left. -/
theorem Fresh.left_seek_zero (hf : h.Fresh bytes) : (h.seek 0).left bytes ≤ bytes.length := by
  unfold Handle.seek
  split
  · rename_i hin
    simp only [Bool.and_eq_true, decide_eq_true_eq, windowStart] at hin
    obtain hnil | ⟨hwindow, hfetched⟩ := hf
    · simp [ahead, hnil] at hin
    · simp only [left, ahead, windowStart, List.length_drop]
      omega
  · simp [left, ahead]

end Handle

end LogRelay
