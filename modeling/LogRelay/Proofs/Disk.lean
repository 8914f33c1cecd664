import LogRelay.Disk.Contents

/-!
# Files by name

A plain name (`Disk.Plain`) leads to what stands under it in the directory that relative paths begin
at.  Reading a whole file fails because the system refuses it, or because its path or its contents
rule it out.
-/

namespace LogRelay

/-- What is found under a key does not depend on the entries with other keys. -/
theorem lookup_filter_of_imp {α β : Type} [BEq α] [LawfulBEq α] {key : α} {entries : List (α × β)}
    {p : α × β → Bool} (hp : ∀ v ∈ entries, v.1 = key → p v) :
    (entries.filter p).lookup key = entries.lookup key := by
  induction entries with
  | nil => rfl
  | cons v entries ih =>
    have hrest := ih fun w hw => hp w (List.mem_cons_of_mem v hw)
    obtain ⟨k, x⟩ := v
    by_cases hk : key = k
    · subst hk
      have hkept : p (key, x) := hp _ List.mem_cons_self rfl
      simp [hkept]
    · have hne : (key == k) = false := beq_false_of_ne hk
      rw [List.lookup_cons, hne]
      by_cases hkept : p (k, x)
      · rw [List.filter_cons_of_pos hkept, List.lookup_cons, hne]
        exact hrest
      · rw [List.filter_cons_of_neg hkept]
        exact hrest

/-- A path that cannot be named is not for the system to refuse. -/
theorem Unnameable.failure_ne_io (why : Unnameable) (e : IoError) : why.failure ≠ .io e := by
  cases why with
  | embeddedNul => nofun
  | surrogates _ => nofun

namespace Disk

/-- A name without steps between directories, short enough for the system. -/
def Plain (name : Text) : Prop :=
  ¬ ("/" : Text).isPrefixOf name ∧ (Text.settled name).split '/' = [name] ∧ name ≠ [] ∧
    name ≠ "." ∧ name ≠ ".." ∧ octets name ≤ nameLimit

instance (name : Text) : Decidable (Plain name) := inferInstanceAs (Decidable (_ ∧ _))

variable {d : Disk} {name path t : Text} {f : Failure}

/-- An empty part of a path leads nowhere else. -/
theorem walk_empty_part {links : Nat} {dir rest : List Text} :
    d.walk links dir ([] :: rest) = d.walk links dir rest := by
  rw [walk]
  rfl

/-- There is no way on below a name that stands for nothing. -/
theorem walk_of_missing {links : Nat} {dir rest : List Text}
    (hstep : name ≠ [] ∧ name ≠ "." ∧ name ≠ "..")
    (hshort : octets name ≤ nameLimit) (hnone : d.leafAt (dir ++ [name]) = none)
    (hrest : rest ≠ []) : d.walk links dir (name :: rest) = .error .noEntry := by
  rw [walk, if_neg (by simp [hstep.1, hstep.2.1]), if_neg hstep.2.2, if_neg (by omega)]
  dsimp only
  rw [hnone]
  exact if_neg (by simpa using hrest)

theorem Plain.place (h : Plain name)
    (hlink : ∀ target, d.leafAt (home ++ [name]) ≠ some (.link target)) :
    d.place name = .ok ⟨home ++ [name], d.leafAt (home ++ [name])⟩ := by
  obtain ⟨hrelative, hparts, hne, hhere, habove, hshort⟩ := h
  have hlong : ¬ pathLimit < octets name := by
    have : nameLimit ≤ pathLimit := by decide
    omega
  unfold Disk.place
  rw [if_neg (by simpa using hne), if_neg hlong, if_neg hrelative, hparts, walk,
    if_neg (by simp [hne, hhere]), if_neg habove, if_neg (by omega)]
  dsimp only
  cases hleaf : d.leafAt (home ++ [name]) with
  | none => rfl
  | some leaf =>
    cases leaf with
    | file n => rfl
    | directory n => simp [walk, hleaf]
    | link target => exact absurd hleaf (hlink target)

theorem Plain.isThere_eq (h : Plain name) (hn : unnameable? name = none)
    (hlink : ∀ target, d.leafAt (home ++ [name]) ≠ some (.link target)) :
    d.isThere name = (d.leafAt (home ++ [name])).isSome := by
  unfold isThere holds
  rw [hn, h.place hlink]
  rfl

theorem Plain.read_eq {n : Nat} (h : Plain name) (hn : unnameable? name = none)
    (hfree : (d.refusals name).reading = none)
    (hfile : d.leafAt (home ++ [name]) = some (.file n)) : d.read name = .ok (d.file n).bytes := by
  unfold read openFile
  rw [hn, hfree, h.place (by simp [hfile]), hfile]

/-! ### Reading texts -/

theorem readText_of_unnameable {why : Unnameable} (h : unnameable? path = some why) :
    d.readText path = .error why.failure := by
  unfold readText read
  rw [h]

theorem readText_of_undecodable {bytes : Bytes} {e : Utf8.DecodeError}
    (hread : d.read path = .ok bytes)
    (h : Utf8.decodeStrict bytes = .error e) : d.readText path = .error (.undecodable e) := by
  unfold readText
  rw [hread]
  dsimp only
  rw [h]

/-- Reading octets is refused by the system, or the path rules it out. -/
theorem read_failure (h : d.read path = .error f) :
    (∃ e, f = .io e) ∨ ∃ why, unnameable? path = some why ∧ f = why.failure := by
  unfold read at h
  split at h
  · next why hwhy => exact .inr ⟨why, hwhy, (Except.error.inj h).symm⟩
  · split at h
    · exact .inl ⟨_, (Except.error.inj h).symm⟩
    · exact .inl ⟨_, (Except.error.inj h).symm⟩
    · cases h

/-- Reading a text is refused by the system, or the path or what is there rules it out. -/
theorem readText_failure (h : d.readText path = .error f) :
    (∃ e, f = .io e) ∨ (∃ why, unnameable? path = some why ∧ f = why.failure) ∨
      ∃ bytes e, d.read path = .ok bytes ∧ Utf8.decodeStrict bytes = .error e ∧
      f = .undecodable e := by
  unfold readText at h
  split at h
  · next hread =>
    obtain rfl := Except.error.inj h
    exact (read_failure hread).imp_right .inl
  · next bytes hread =>
    split at h
    · cases h
    · next e he => exact .inr (.inr ⟨bytes, e, hread, he, (Except.error.inj h).symm⟩)

end Disk

end LogRelay
