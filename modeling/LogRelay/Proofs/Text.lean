import LogRelay.Proofs.Pieces
import LogRelay.Text.Blank
import LogRelay.Text.Quoted
import Mathlib.Data.List.Basic

/-!
# The code points of texts

What an operation on texts leaves, and that none of them brings in a surrogate: literals, numbers
and quoted texts hold none at all.  Trimming takes away blank space at the ends and no more
(`exists_strip`).
-/

namespace LogRelay

theorem CodePoint.isSurrogate_iff {c : CodePoint} :
    c.isSurrogate ↔ 0xD800 ≤ c.val ∧ c.val ≤ 0xDFFF := by
  simp [isSurrogate]

theorem CodePoint.val_ofNat {n : Nat} (h : n < 0x110000) : (CodePoint.ofNat n).val = n :=
  Nat.mod_eq_of_lt h

theorem CodePoint.not_isSurrogate_ofChar (ch : Char) : ¬ (CodePoint.ofChar ch).isSurrogate := by
  have hvalid : ch.val.toNat < 0xD800 ∨ 0xDFFF < ch.val.toNat ∧ ch.val.toNat < 0x110000 := ch.valid
  rw [isSurrogate_iff]
  change ¬ (0xD800 ≤ ch.val.toNat ∧ ch.val.toNat ≤ 0xDFFF)
  omega

namespace Text

variable {c d : CodePoint} {s t old new sep : Text}

/-! ## Operations -/

theorem mem_of_mem_strip (h : c ∈ strip t) : c ∈ t := by
  have hinner := List.mem_reverse.1 ((List.dropWhile_sublist isBlank).mem (List.mem_reverse.1 h))
  exact (List.dropWhile_sublist isBlank).mem hinner

theorem mem_replaceAll (h : c ∈ replaceAll t d new) : c ∈ t ∨ c ∈ new := by
  obtain ⟨e, he, hc⟩ := List.mem_flatMap.1 h
  split at hc
  · exact .inr hc
  · exact .inl (List.mem_singleton.1 hc ▸ he)

theorem mem_replaceFirst (h : c ∈ replaceFirst t old new) : c ∈ t ∨ c ∈ new := by
  fun_induction replaceFirst t old new with
  | case1 => exact .inr h
  | case2 => exact .inl h
  | case3 e rest hprefix =>
    obtain hnew | hrest := List.mem_append.1 h
    · exact .inr hnew
    · exact .inl (List.mem_of_mem_drop hrest)
  | case4 e rest hprefix ih =>
    obtain rfl | hrest := List.mem_cons.1 h
    · exact .inl List.mem_cons_self
    · exact (ih hrest).imp_left (List.mem_cons_of_mem _)

theorem mem_padRight {width : Nat} (h : c ∈ padRight width t) : c ∈ t ∨ c = ' ' := by
  rw [padRight, List.mem_append] at h
  exact h.imp_right List.eq_of_mem_replicate

theorem mem_joinWith {parts : List Text} (h : c ∈ joinWith sep parts) :
    c ∈ sep ∨ ∃ p ∈ parts, c ∈ p := by
  rw [joinWith] at h
  induction parts with
  | nil => exact absurd h List.not_mem_nil
  | cons p parts ih =>
    cases parts with
    | nil =>
      rw [List.intercalate_singleton] at h
      exact .inr ⟨p, List.mem_cons_self, h⟩
    | cons q parts =>
      rw [List.intercalate_cons_cons, List.mem_append, List.mem_append] at h
      rcases h with (hp | hsep) | hrest
      · exact .inr ⟨p, List.mem_cons_self, hp⟩
      · exact .inl hsep
      · exact (ih hrest).imp_right fun ⟨r, hr, hc⟩ => ⟨r, List.mem_cons_of_mem _ hr, hc⟩

/-! ## Trimming -/

/-- There is no blank space at the ends. -/
structure Trimmed (t : Text) : Prop where
  head : ∀ c ∈ t.head?, ¬ isBlank c
  last : ∀ c ∈ t.getLast?, ¬ isBlank c

theorem strip_append_append {before behind : Text} (hb : ∀ c ∈ before, isBlank c) (ht : Trimmed t)
    (hb' : ∀ c ∈ behind, isBlank c) : strip (before ++ (t ++ behind)) = t := by
  have hend : ∀ c ∈ behind.reverse, isBlank c := fun c hc => hb' c (List.mem_reverse.1 hc)
  rw [strip, List.dropWhile_append_of_pos hb]
  cases t with
  | nil =>
    have hblank : (behind ++ []).dropWhile isBlank = [] := List.dropWhile_append_of_pos hb'
    rw [List.append_nil] at hblank
    rw [List.nil_append, hblank]
    rfl
  | cons c rest =>
    have hlast : (c :: rest).reverse.dropWhile isBlank = (c :: rest).reverse := by
      cases hr : (c :: rest).reverse with
      | nil => rfl
      | cons d u =>
        refine List.dropWhile_cons_of_neg (ht.last d ?_)
        rw [← List.head?_reverse, hr]
        rfl
    rw [List.cons_append, List.dropWhile_cons_of_neg (ht.head c rfl), ← List.cons_append,
      List.reverse_append, List.dropWhile_append_of_pos hend, hlast, List.reverse_reverse]

/-- What trimming takes away is blank space at the ends. -/
theorem exists_strip (t : Text) :
    ∃ before behind, (∀ c ∈ before, isBlank c) ∧ (∀ c ∈ behind, isBlank c) ∧
    t = before ++ (strip t ++ behind) ∧ Trimmed (strip t) := by
  have hstrip : strip t ++ ((t.dropWhile isBlank).reverse.takeWhile isBlank).reverse =
      t.dropWhile isBlank := by
    rw [strip, ← List.reverse_append, List.takeWhile_append_dropWhile, List.reverse_reverse]
  refine ⟨t.takeWhile isBlank, ((t.dropWhile isBlank).reverse.takeWhile isBlank).reverse,
    ?_, ?_, ?_, ?_, ?_⟩
  · exact fun c hc => List.all_eq_true.1 List.all_takeWhile c hc
  · exact fun c hc => List.all_eq_true.1 List.all_takeWhile c (List.mem_reverse.1 hc)
  · rw [hstrip, List.takeWhile_append_dropWhile]
  · intro c hc
    have hhead : c ∈ (t.dropWhile isBlank).head? := by
      rw [← hstrip, List.head?_append, Option.mem_def.1 hc]
      rfl
    have hnot := List.head?_dropWhile_not isBlank t
    rw [hhead] at hnot
    simpa using hnot
  · intro c hc
    rw [strip, List.getLast?_reverse] at hc
    have hnot := List.head?_dropWhile_not isBlank (t.dropWhile isBlank).reverse
    rw [hc] at hnot
    simpa using hnot

theorem strip_of_trimmed (h : Trimmed t) : strip t = t := by
  have hnone : ∀ c ∈ ([] : Text), isBlank c := fun _ h => absurd h List.not_mem_nil
  simpa using strip_append_append hnone h hnone

theorem trimmed_of_strip_eq (h : strip t = t) : Trimmed t := by
  obtain ⟨_, _, -, -, -, htrimmed⟩ := exists_strip t
  rwa [h] at htrimmed

theorem strip_strip (t : Text) : strip (strip t) = strip t := by
  obtain ⟨before, behind, -, -, -, htrimmed⟩ := exists_strip t
  exact strip_of_trimmed htrimmed

theorem strip_blank_append {before : Text} (hb : ∀ c ∈ before, isBlank c) (t : Text) :
    strip (before ++ t) = strip t := by
  obtain ⟨before', behind, hb', hbehind, heq, htrimmed⟩ := exists_strip t
  have hboth : ∀ c ∈ before ++ before', isBlank c := List.forall_mem_append.2 ⟨hb, hb'⟩
  calc strip (before ++ t) = strip (before ++ before' ++ (strip t ++ behind)) := by
        rw [List.append_assoc, ← heq]
    _ = strip t := strip_append_append hboth htrimmed hbehind

theorem strip_append_blank (t : Text) {behind : Text} (hb : ∀ c ∈ behind, isBlank c) :
    strip (t ++ behind) = strip t := by
  obtain ⟨before, behind', hbefore, hb', heq, htrimmed⟩ := exists_strip t
  have hboth : ∀ c ∈ behind' ++ behind, isBlank c := List.forall_mem_append.2 ⟨hb', hb⟩
  have hsame : t ++ behind = before ++ (strip t ++ (behind' ++ behind)) := by
    rw [← List.append_assoc (strip t), ← List.append_assoc, ← heq]
  rw [hsame]
  exact strip_append_append hbefore htrimmed hboth

/-! ## Surrogates -/

section Surrogates

variable (hs : c.isSurrogate)

include hs

theorem notMem_ofString (s : String) : c ∉ ofString s := by
  intro h
  obtain ⟨ch, -, rfl⟩ := List.mem_map.1 h
  exact CodePoint.not_isSurrogate_ofChar ch hs

theorem ne_ofChar (ch : Char) : c ≠ CodePoint.ofChar ch := by
  rintro rfl
  exact CodePoint.not_isSurrogate_ofChar ch hs

theorem notMem_ofInt (n : Int) : c ∉ ofInt n := by
  rw [ofInt]
  split
  · rw [List.mem_cons, not_or]
    exact ⟨ne_ofChar hs '-', notMem_ofString hs _⟩
  · exact notMem_ofString hs _

theorem notMem_hexDigits (width n : Nat) : c ∉ hexDigits width n := by
  induction width generalizing n with
  | zero => exact List.not_mem_nil
  | succ width ih =>
    have hdigit : c ≠ hexDigit (n % 16) := by
      rintro rfl
      have hlt := Nat.mod_lt n (show 0 < 16 by decide)
      rw [hexDigit, CodePoint.isSurrogate_iff] at hs
      split at hs <;> rw [CodePoint.val_ofNat (by omega)] at hs <;> omega
    rw [hexDigits, List.mem_append, List.mem_singleton, not_or]
    exact ⟨ih _, hdigit⟩

theorem isPrintable_eq_false : isPrintable c = false := by
  have hrun : unprintableRuns.any (fun run => run.1 ≤ c.val && c.val ≤ run.2) = true := by
    rw [CodePoint.isSurrogate_iff] at hs
    refine List.any_eq_true.2 ⟨(55292, 63743), by decide +kernel, ?_⟩
    simp only [Bool.and_eq_true, decide_eq_true_eq]
    omega
  rw [CodePoint.isSurrogate_iff] at hs
  rw [isPrintable, if_neg (by omega), hrun]
  rfl

theorem notMem_quotedPoint {quote : CodePoint} (hq : c ≠ quote) (e : CodePoint) :
    c ∉ quotedPoint quote e := by
  unfold quotedPoint
  split
  · next he =>
    rw [List.mem_cons, List.mem_singleton, not_or]
    refine ⟨ne_ofChar hs _, ?_⟩
    rintro rfl
    obtain rfl | rfl := he
    · exact hq rfl
    · exact ne_ofChar hs _ rfl
  · split_ifs with _ _ _ hprintable
    · exact notMem_ofString hs _
    · exact notMem_ofString hs _
    · exact notMem_ofString hs _
    · rw [List.mem_singleton]
      rintro rfl
      rw [isPrintable_eq_false hs] at hprintable
      cases hprintable
    all_goals
      rw [List.mem_append, not_or]
      exact ⟨notMem_ofString hs _, notMem_hexDigits hs _ _⟩

theorem notMem_quoted (t : Text) : c ∉ quoted t := by
  have hquote : c ≠ quoteFor t := by
    rw [quoteFor]
    split
    · exact ne_ofChar hs '"'
    · exact ne_ofChar hs '\''
  rw [quoted]
  simp only [List.mem_cons, List.mem_append, List.mem_flatMap, List.not_mem_nil, or_false,
    not_or, not_exists, not_and]
  exact ⟨hquote, fun e _ => notMem_quotedPoint hs hquote e, hquote⟩

end Surrogates

end Text

end LogRelay
