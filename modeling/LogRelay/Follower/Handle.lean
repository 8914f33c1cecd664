import LogRelay.Text.Basic

/-!
# Open files

A handle reads a file through a window: a short read fetches a whole block and keeps what was not
asked for, and a move inside the window does not look at the file again.  What the window holds may
therefore be older than the file.
-/

namespace LogRelay

/-- A file that is held open for reading. -/
structure Handle where
  /-- The file. -/
  number : Nat
  /-- How far the file itself has been read. -/
  fetched : Nat
  /-- The octets that were fetched last. -/
  window : Bytes
  /-- How many of them have been handed out. -/
  taken : Nat

namespace Handle

/-- The count of octets that are fetched at once. -/
def blockSize : Nat := 4096

/-- A file just opened. -/
def opened (number : Nat) : Handle := ⟨number, 0, [], 0⟩

/-- What has been fetched and not handed out. -/
def ahead (h : Handle) : Bytes := h.window.drop h.taken

/-- The offset of the octet that is read next. -/
def position (h : Handle) : Nat := h.fetched - h.ahead.length

/-- The offset of the first octet of the window. -/
def windowStart (h : Handle) : Nat := h.fetched - h.window.length

/-- Moves to an offset: inside the window while something is left in it, else anew. -/
def seek (h : Handle) (target : Nat) : Handle :=
  if !h.ahead.isEmpty && h.windowStart ≤ target && target ≤ h.fetched then
    { h with taken := target - h.windowStart }
  else ⟨h.number, target, [], 0⟩

/-- Moves behind the last octet of a file of some size. -/
def seekEnd (h : Handle) (size : Nat) : Handle := ⟨h.number, size, [], 0⟩

/-- Reads up to `count` octets of a file that holds `bytes`.  What is ahead comes first; of what is
still needed whole blocks are handed out as they are fetched, and the last block is kept. -/
def read (h : Handle) (bytes : Bytes) (count : Nat) : Bytes × Handle :=
  if count ≤ h.ahead.length then (h.ahead.take count, { h with taken := h.taken + count })
  else
    let need := count - h.ahead.length
    let rest := bytes.drop h.fetched
    let found := rest.take need
    let whole := need - need % blockSize
    let last := need % blockSize
    let block := (rest.drop whole).take blockSize
    let after : Handle :=
      if 0 < last ∧ last ≤ block.length then
        ⟨h.number, h.fetched + whole + block.length, block, last⟩
      else ⟨h.number, h.fetched + found.length, [], 0⟩
    (h.ahead ++ found, after)

end Handle

end LogRelay
