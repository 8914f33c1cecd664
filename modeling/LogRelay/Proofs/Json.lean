import LogRelay.Json.Parser
import LogRelay.Json.Printer
import LogRelay.Proofs.Text
import Mathlib.Data.List.Basic

/-!
# Reading what was written

A text that is written as a JSON string is read back as it was (`Json.string_escaped`), whatever
code points it holds; so is an object with one text member (`Json.parse_write_member`).  What is
written is free of control characters and holds no surrogate that was not in the text
(`Json.mem_write_member`).
-/

namespace LogRelay.Json

/-! ## Steps of reading a string -/

section Steps

variable {opening read rest : Text} {lead : Bool}

theorem stringFrom_quote :
    stringFrom opening lead read ('"' :: rest) = .ok (read.reverse, rest) := by
  rw [stringFrom.eq_def]
  exact if_pos rfl

theorem stringFrom_plain {c : CodePoint} (hq : c ≠ '"') (hc : ¬ c.val < 32) (hb : c ≠ '\\') :
    stringFrom opening lead read (c :: rest) = stringFrom opening false (c :: read) rest := by
  rw [stringFrom.eq_def]
  dsimp only
  rw [if_neg hq, if_neg hc, if_neg hb]

theorem stringFrom_short {e d : CodePoint} (he : e ≠ 'u') (hd : shortEscape? e = some d) :
    stringFrom opening lead read ('\\' :: e :: rest) =
      stringFrom opening false (d :: read) rest := by
  rw [stringFrom.eq_def]
  dsimp only
  rw [if_neg (by decide), if_neg (by decide), if_pos rfl, if_neg he, hd]

theorem stringFrom_numeric {a b c d : CodePoint} {n : Nat} (hn : hexValue4? a b c d = some n)
    (hrest : rest ≠ []) :
    stringFrom opening lead read ('\\' :: 'u' :: a :: b :: c :: d :: rest) =
      stringFrom opening (isHighSurrogate n) (pushEscaped lead read n) rest := by
  have hmore : ¬ rest.isEmpty := fun h => hrest (List.isEmpty_iff.1 h)
  rw [stringFrom.eq_def]
  dsimp only
  rw [if_neg (by decide), if_neg (by decide), if_pos rfl, if_pos rfl, hn]
  exact if_neg hmore

end Steps

/-! ## Escapes -/

theorem hexValue?_hexDigit {d : Nat} (h : d < 16) : hexValue? (Text.hexDigit d) = some d := by
  have hall : ∀ d : Fin 16, hexValue? (Text.hexDigit d) = some d.val := by decide
  exact hall ⟨d, h⟩

theorem hexValue4?_hexDigit {n : Nat} (h : n < 0x10000) :
    hexValue4? (Text.hexDigit (n / 16 / 16 / 16 % 16)) (Text.hexDigit (n / 16 / 16 % 16))
      (Text.hexDigit (n / 16 % 16)) (Text.hexDigit (n % 16)) = some n := by
  unfold hexValue4?
  rw [hexValue?_hexDigit (by omega), hexValue?_hexDigit (by omega), hexValue?_hexDigit (by omega),
    hexValue?_hexDigit (by omega)]
  exact congrArg some (by omega)

theorem numericEscape_of_lt {n : Nat} (h : n < 0x10000) :
    numericEscape n =
      (['\\', 'u', Text.hexDigit (n / 16 / 16 / 16 % 16), Text.hexDigit (n / 16 / 16 % 16),
      Text.hexDigit (n / 16 % 16), Text.hexDigit (n % 16)] : Text) := by
  unfold numericEscape
  rw [if_pos h]
  rfl

/-- How one code point is written inside a string. -/
inductive Escaped (c : CodePoint) : Text → Prop
  | short {e : CodePoint} (he : e ≠ 'u')
      (hd : shortEscape? e = some c) : Escaped c (['\\', e] : Text)
  | numeric (h : c.val < 32) : Escaped c (numericEscape c.val)
  | plain (hq : c ≠ '"') (hc : ¬ c.val < 32) (hb : c ≠ '\\') : Escaped c [c]

theorem escaped_escapePoint (c : CodePoint) : Escaped c (escapePoint false c) := by
  have short (e d : CodePoint) {s : Text} (hs : s = (['\\', e] : Text)) (he : e ≠ 'u')
      (hd : shortEscape? e = some d) (hc : c = d) : Escaped c s := by
    subst hs hc
    exact .short he hd
  unfold escapePoint
  split
  · next hc => exact short '"' '"' rfl (by decide) (by decide) hc
  next hq =>
  split
  · next hc => exact short '\\' '\\' rfl (by decide) (by decide) hc
  next hb =>
  split
  · next hc => exact short 'n' '\n' rfl (by decide) (by decide) (Fin.ext hc)
  split
  · next hc => exact short 'r' '\r' rfl (by decide) (by decide) (Fin.ext hc)
  split
  · next hc => exact short 't' '\t' rfl (by decide) (by decide) (Fin.ext hc)
  split
  · next hc => exact short 'f' (.ofNat 12) rfl (by decide) (by decide) (Fin.ext hc)
  split
  · next hc => exact short 'b' (.ofNat 8) rfl (by decide) (by decide) (Fin.ext hc)
  split
  · next hc => exact .numeric hc
  next hc =>
  exact .plain hq hc hb

/-! ## Round trips -/

section RoundTrip

variable {opening read rest : Text}

theorem stringFrom_escaped {c : CodePoint} {s : Text} (h : Escaped c s) (hrest : rest ≠ []) :
    stringFrom opening false read (s ++ rest) = stringFrom opening false (c :: read) rest := by
  cases h with
  | short he hd => exact stringFrom_short he hd
  | numeric hlt =>
    have hn : c.val < 0x10000 := by omega
    have hhigh : isHighSurrogate c.val = false := by
      unfold isHighSurrogate
      simp
      omega
    have hpush : pushEscaped false read c.val = c :: read :=
      congrArg (· :: read) (Fin.ofNat_val_eq_self c)
    rw [numericEscape_of_lt hn]
    refine (stringFrom_numeric (hexValue4?_hexDigit hn) hrest).trans ?_
    rw [hhigh, hpush]
  | plain hq hc hb => exact stringFrom_plain hq hc hb

theorem stringFrom_flatMap (t : Text) :
    stringFrom opening false read (t.flatMap (escapePoint false) ++ ('"' : CodePoint) :: rest) =
      .ok (read.reverse ++ t, rest) := by
  induction t generalizing read with
  | nil =>
    rw [List.append_nil]
    exact stringFrom_quote
  | cons c t ih =>
    have hne : t.flatMap (escapePoint false) ++ ('"' : CodePoint) :: rest ≠ [] := by simp
    rw [List.flatMap_cons, List.append_assoc, stringFrom_escaped (escaped_escapePoint c) hne, ih,
      List.reverse_cons, List.append_assoc]
    rfl

theorem writeText_append (t rest : Text) :
    writeText false t ++ rest =
      ('"' : CodePoint) :: (t.flatMap (escapePoint false) ++ ('"' : CodePoint) :: rest) := by
  unfold writeText
  simp only [List.append_assoc]
  rfl

/-- A text that is written as a string is read back, whatever it holds. -/
theorem string_escaped (t rest : Text) :
    string (t.flatMap (escapePoint false) ++ ('"' : CodePoint) :: rest) = .ok (t, rest) :=
  stringFrom_flatMap t

theorem skipSpace_cons {c : CodePoint} (h : isSpace c = false) (rest : Text) :
    skipSpace (c :: rest) = c :: rest := by
  rw [skipSpace, List.dropWhile_cons, if_neg (by simp [h])]

theorem skipSpace_writeText (t rest : Text) :
    skipSpace (writeText false t ++ rest) = writeText false t ++ rest := by
  rw [writeText_append]
  exact skipSpace_cons (by decide) _

theorem value_writeText (fuel depth : Nat) (t rest : Text) :
    value (fuel + 1) depth (writeText false t ++ rest) = .ok (.text t, rest) := by
  rw [writeText_append, value.eq_def]
  dsimp only
  rw [if_pos rfl, string_escaped]

theorem members_writeText (fuel depth : Nat) (key t : Text) :
    members (fuel + 2) depth []
      (writeText false key ++ (':' : CodePoint) :: (writeText false t ++ (['\x7d'] : Text))) =
      .ok (.object [(key, .text t)], []) := by
  rw [writeText_append, members.eq_def]
  dsimp only
  rw [if_neg (by decide), string_escaped]
  dsimp only
  rw [skipSpace_cons (by decide)]
  dsimp only
  rw [if_neg (by decide), skipSpace_writeText, value_writeText]
  dsimp only
  rw [skipSpace_cons (by decide)]
  rfl

theorem write_member (key t : Text) :
    (Json.object [(key, .text t)]).write compact = ('\x7b' : CodePoint) ::
      (writeText false key ++ (':' : CodePoint) :: (writeText false t ++ (['\x7d'] : Text))) := by
  simp only [write, writeMembers, Text.joinWith, List.intercalate_singleton, List.append_assoc]
  rfl

/-- An object with one text member is read back. -/
theorem parse_write_member (key t : Text) :
    parse ((Json.object [(key, .text t)]).write compact) = .ok (.object [(key, .text t)]) := by
  rw [write_member, parse]
  set body := writeText false key ++ (':' : CodePoint) ::
    (writeText false t ++ (['\x7d'] : Text)) with hbody
  obtain ⟨fuel, hfuel⟩ : ∃ fuel, 2 * (('\x7b' : CodePoint) :: body).length + 2 =
    fuel + 3 := ⟨_, rfl⟩
  have hvalue : value (fuel + 3) depthLimit (('\x7b' : CodePoint) :: body) =
      .ok (.object [(key, .text t)], []) := by
    rw [value.eq_def]
    dsimp only
    rw [if_neg (by decide), if_pos rfl, if_neg (by decide), hbody, skipSpace_writeText,
      writeText_append]
    dsimp only
    rw [if_neg (by decide), ← writeText_append]
    exact members_writeText fuel (depthLimit - 1) key t
  rw [skipSpace_cons (by decide), hfuel, hvalue]
  rfl

end RoundTrip

/-! ## What is written -/

section Written

variable {c x : CodePoint} {s t key : Text} {P : Prop}

/-- A printable character of ASCII is no control character and no surrogate. -/
theorem clean_of_ascii (h : 32 ≤ x.val ∧ x.val < 127) : 32 ≤ x.val ∧ (x.isSurrogate → P) := by
  refine ⟨h.1, fun hs => ?_⟩
  rw [CodePoint.isSurrogate_iff] at hs
  omega

theorem ascii_hexDigit {d : Nat} (h : d < 16) :
    32 ≤ (Text.hexDigit d).val ∧ (Text.hexDigit d).val < 127 := by
  have hall : ∀ d : Fin 16, 32 ≤ (Text.hexDigit d).val ∧ (Text.hexDigit d).val < 127 := by decide
  exact hall ⟨d, h⟩

theorem ascii_of_shortEscape? {e : CodePoint} (h : shortEscape? e = some c) :
    32 ≤ e.val ∧ e.val < 127 := by
  unfold shortEscape? at h
  split at h
  · next he => rcases he with rfl | rfl | rfl <;> decide
  repeat' split at h
  all_goals first | (next he => subst he; decide) | cases h

theorem Escaped.mem (h : Escaped c s) (hx : x ∈ s) : 32 ≤ x.val ∧ (x.isSurrogate → x = c) := by
  cases h with
  | short he hd =>
    simp only [List.mem_cons, List.not_mem_nil, or_false] at hx
    rcases hx with rfl | rfl
    · exact clean_of_ascii (by decide)
    · exact clean_of_ascii (ascii_of_shortEscape? hd)
  | numeric hlt =>
    rw [numericEscape_of_lt (by omega)] at hx
    simp only [List.mem_cons, List.not_mem_nil, or_false] at hx
    rcases hx with rfl | rfl | rfl | rfl | rfl | rfl
    · exact clean_of_ascii (by decide)
    · exact clean_of_ascii (by decide)
    all_goals exact clean_of_ascii (ascii_hexDigit (by omega))
  | plain hq hc hb =>
    obtain rfl := List.mem_singleton.1 hx
    exact ⟨Nat.le_of_not_lt hc, fun _ => rfl⟩

theorem mem_writeText (hx : x ∈ writeText false t) : 32 ≤ x.val ∧ (x.isSurrogate → x ∈ t) := by
  have hquote : x ∈ ("\"" : Text) → 32 ≤ x.val ∧ (x.isSurrogate → x ∈ t) := by
    intro h
    obtain rfl : x = '"' := List.mem_singleton.1 h
    exact clean_of_ascii (by decide)
  rw [writeText, List.mem_append, List.mem_append, List.mem_flatMap] at hx
  rcases hx with (hx | ⟨c, hc, hx⟩) | hx
  · exact hquote hx
  · obtain ⟨hge, hs⟩ := (escaped_escapePoint c).mem hx
    exact ⟨hge, fun h => hs h ▸ hc⟩
  · exact hquote hx

/-- An object with one text member is written without control characters, and with no surrogates but
those of its key and its text. -/
theorem mem_write_member (hx : x ∈ (Json.object [(key, .text t)]).write compact) :
    32 ≤ x.val ∧ (x.isSurrogate → x ∈ key ∨ x ∈ t) := by
  rw [write_member] at hx
  simp only [List.mem_cons, List.mem_append, List.not_mem_nil, or_false] at hx
  rcases hx with rfl | hx | rfl | hx | rfl
  · exact clean_of_ascii (by decide)
  · exact (mem_writeText hx).imp_right fun h hs => .inl (h hs)
  · exact clean_of_ascii (by decide)
  · exact (mem_writeText hx).imp_right fun h hs => .inr (h hs)
  · exact clean_of_ascii (by decide)

end Written

/-! ## Members -/

section Members

variable {α : Type} {key : Text} {value : α} {ms : List (Text × α)}

theorem putMember_of_notMem (h : key ∉ ms.map Prod.fst) :
    putMember key value ms = ms ++ [(key, value)] := by
  induction ms with
  | nil => rfl
  | cons entry ms ih =>
    obtain ⟨k, v⟩ := entry
    simp only [List.map_cons, List.mem_cons, not_or] at h
    rw [putMember, if_neg (Ne.symm h.1), ih h.2]
    rfl

/-- Members with distinct keys stay as they are. -/
theorem collapse_of_nodup (h : (ms.map Prod.fst).Nodup) : collapse ms = ms := by
  have hfold : ∀ before : List (Text × α), ((before ++ ms).map Prod.fst).Nodup →
      ms.foldl (fun ms entry => putMember entry.1 entry.2 ms) before = before ++ ms := by
    clear h
    induction ms with
    | nil => simp
    | cons entry ms ih =>
      intro before h
      obtain ⟨k, v⟩ := entry
      have hnot : k ∉ before.map Prod.fst := by
        rw [List.map_append, List.map_cons] at h
        exact fun hmem => (List.nodup_append.1 h).2.2 _ hmem _ List.mem_cons_self rfl
      rw [List.append_cons] at h
      rw [List.foldl_cons]
      dsimp only
      rw [putMember_of_notMem hnot, ih _ h, ← List.append_cons]
  exact hfold [] h

end Members

end LogRelay.Json
