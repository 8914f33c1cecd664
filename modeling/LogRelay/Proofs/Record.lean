import LogRelay.Entry
import LogRelay.Proofs.Json
import Mathlib.Data.List.Nodup

/-!
# The members of records

A key that comes again in an object replaces the value it had, so the members of an object that is
read have distinct keys, and so do those of a record (`Entry.nodup_keys_of_ofLine`).  Then every
member is the one that is found by its key, and the order of the members does not matter
(`Json.lookup_of_perm`).
-/

namespace LogRelay

/-! ## Objects -/

namespace Json

section Members

variable {α : Type} {key : Text} {value : α} {ms : List (Text × α)}

theorem keys_putMember_of_mem (h : key ∈ ms.map Prod.fst) :
    (putMember key value ms).map Prod.fst = ms.map Prod.fst := by
  induction ms with
  | nil => exact absurd h List.not_mem_nil
  | cons entry ms ih =>
    obtain ⟨k, v⟩ := entry
    by_cases hk : k = key
    · rw [putMember, if_pos hk]
      rfl
    · rw [List.map_cons, List.mem_cons] at h
      have hrest : key ∈ ms.map Prod.fst := h.resolve_left fun h => hk h.symm
      rw [putMember, if_neg hk, List.map_cons, ih hrest]
      rfl

theorem nodup_putMember (h : (ms.map Prod.fst).Nodup) :
    ((putMember key value ms).map Prod.fst).Nodup := by
  by_cases hkey : key ∈ ms.map Prod.fst
  · rwa [keys_putMember_of_mem hkey]
  · rw [putMember_of_notMem hkey, List.map_append]
    apply h.append (List.nodup_singleton key)
    simpa using hkey

theorem nodup_collapse (ms : List (Text × α)) : ((collapse ms).map Prod.fst).Nodup := by
  have hfold : ∀ read : List (Text × α), (read.map Prod.fst).Nodup →
      ((ms.foldl (fun ms entry => putMember entry.1 entry.2 ms) read).map Prod.fst).Nodup := by
    induction ms with
    | nil => exact fun read h => h
    | cons entry ms ih => exact fun read h => ih _ (nodup_putMember h)
  exact hfold [] List.nodup_nil

theorem mem_of_lookup (h : ms.lookup key = some value) : (key, value) ∈ ms := by
  obtain ⟨before, after, hsplit, -⟩ := List.lookup_eq_some_iff.1 h
  simp [hsplit]

theorem exists_lookup_of_mem (h : key ∈ ms.map Prod.fst) : ∃ value, ms.lookup key = some value := by
  obtain ⟨⟨k, v⟩, hm, rfl⟩ := List.mem_map.1 h
  rw [← Option.isSome_iff_exists, List.lookup_isSome_iff]
  exact ⟨(k, v), hm, beq_self_eq_true k⟩

/-- With distinct keys every member is the one that is found by its key. -/
theorem lookup_eq_some_iff_mem (hd : (ms.map Prod.fst).Nodup) :
    ms.lookup key = some value ↔ (key, value) ∈ ms := by
  constructor
  · exact mem_of_lookup
  · intro h
    obtain ⟨w, hw⟩ := exists_lookup_of_mem (List.mem_map_of_mem h)
    have hsame : (key, w) = (key, value) := List.inj_on_of_nodup_map hd (mem_of_lookup hw) h rfl
    rw [hw, (Prod.mk.inj hsame).2]

/-- The order of members with distinct keys does not matter to what is found. -/
theorem lookup_of_perm {ms' : List (Text × α)} (hd : (ms.map Prod.fst).Nodup)
    (h : ms.Perm ms') (key : Text) : ms.lookup key = ms'.lookup key := by
  have hd' : (ms'.map Prod.fst).Nodup := (h.map Prod.fst).nodup_iff.1 hd
  ext value
  rw [lookup_eq_some_iff_mem hd, lookup_eq_some_iff_mem hd', h.mem_iff]

end Members

/-- The reader of members gives an object with distinct keys, by induction on its fuel. -/
theorem nodup_of_members {fuel depth : Nat} {read : List (Text × Json)} {s rest : Text} {v : Json}
    (h : members fuel depth read s = .ok (v, rest)) :
    ∃ ms, v = .object ms ∧ (ms.map Prod.fst).Nodup := by
  induction fuel generalizing read s with
  | zero =>
    rw [members.eq_def] at h
    cases h
  | succ fuel ih =>
    rw [members.eq_def] at h
    dsimp only at h
    split at h
    · cases h
    · split at h
      · cases h
      · split at h
        · cases h
        · split at h
          · cases h
          · split at h
            · cases h
            · split at h
              · cases h
              · split at h
                · cases h
                · split at h
                  · obtain ⟨rfl, -⟩ := Prod.mk.inj (Except.ok.inj h)
                    exact ⟨_, rfl, nodup_collapse _⟩
                  · split at h
                    · exact ih h
                    · cases h

/-- A value that begins with a brace is an object with distinct keys. -/
theorem nodup_of_value {fuel depth : Nat} {s rest : Text} {v : Json}
    (h : value fuel depth ('\x7b' :: s) = .ok (v, rest)) :
    ∃ ms, v = .object ms ∧ (ms.map Prod.fst).Nodup := by
  cases fuel with
  | zero =>
    rw [value.eq_def] at h
    cases h
  | succ fuel =>
    have hquote : ('\x7b' : CodePoint) ≠ '"' := by decide
    rw [value.eq_def] at h
    dsimp only at h
    rw [if_neg hquote, if_pos rfl] at h
    split at h
    · cases h
    · split at h
      · exact nodup_of_members h
      · split at h
        · obtain ⟨rfl, -⟩ := Prod.mk.inj (Except.ok.inj h)
          exact ⟨[], rfl, List.nodup_nil⟩
        · exact nodup_of_members h

/-- Reads a text that is one value and white space; every step spends `fuel`, and entering a
container `depth`. -/
def parseWithin (fuel depth : Nat) (s : Text) : Except Fault Json :=
  match value fuel depth (skipSpace s) with
  | .error e => .error e
  | .ok (v, rest) =>
    match skipSpace rest with
    | [] => .ok v
    | rest => .error (.malformed .extraData rest)

theorem parse_eq (s : Text) : parse s = parseWithin (2 * s.length + 2) depthLimit s := rfl

/-- A text that begins with a brace is read as an object with distinct keys or not at all. -/
theorem nodup_of_parseWithin {fuel depth : Nat} {s : Text} {v : Json}
    (h : parseWithin fuel depth ('\x7b' :: s) = .ok v) :
    ∃ ms, v = .object ms ∧ (ms.map Prod.fst).Nodup := by
  have hskip : skipSpace (('\x7b' : CodePoint) :: s) = ('\x7b' : CodePoint) :: s :=
    List.dropWhile_cons_of_neg (by decide)
  rw [parseWithin, hskip] at h
  split at h
  · cases h
  · next w rest hw =>
    split at h
    · obtain rfl := Except.ok.inj h
      exact nodup_of_value hw
    · cases h

end Json

/-! ## Records -/

namespace Entry

variable {line : Text} {m : Message}

theorem isStructured_of_ofLine (h : ofLine line = .record m) : isStructured line := by
  unfold ofLine at h
  split at h
  · next hstructured => exact hstructured
  · cases h

theorem parse_of_ofLine (h : ofLine line = .record m) :
    Json.parse line = .ok (.object m.members) := by
  rw [ofLine, if_pos (isStructured_of_ofLine h)] at h
  split at h
  · next m' hd =>
    obtain rfl := record.inj h
    unfold decode at hd
    split at hd
    · cases hd
    · next members hp =>
      obtain rfl := Except.ok.inj hd
      exact hp
    · cases hd
  · cases h

theorem nodup_keys_of_ofLine (h : ofLine line = .record m) : m.keys.Nodup := by
  have hstructured := isStructured_of_ofLine h
  have hparse := parse_of_ofLine h
  cases line with
  | nil => cases hstructured
  | cons c rest =>
    obtain rfl : c = '\x7b' := of_decide_eq_true hstructured
    obtain ⟨ms, hms, hnodup⟩ := Json.nodup_of_parseWithin hparse
    obtain rfl := Json.object.inj hms
    exact hnodup

end Entry

namespace Message

variable {m m' : Message} {key : Text} {v : Json}

theorem mem_members_of_get? (h : m.get? key = some v) : (key, v) ∈ m.members := Json.mem_of_lookup h

theorem exists_get?_of_mem_keys (h : key ∈ m.keys) : ∃ v, m.get? key = some v :=
  Json.exists_lookup_of_mem h

theorem get?_eq_some_iff (hd : m.keys.Nodup) : m.get? key = some v ↔ (key, v) ∈ m.members :=
  Json.lookup_eq_some_iff_mem hd

theorem get?_of_perm (hd : m.keys.Nodup) (h : m.members.Perm m'.members) (key : Text) :
    m.get? key = m'.get? key :=
  Json.lookup_of_perm hd h key

end Message

end LogRelay
