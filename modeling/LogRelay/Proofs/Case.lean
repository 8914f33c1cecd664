import LogRelay.Proofs.Text
import LogRelay.Text.Case

/-!
# Laws of case

Both case maps leave blank space and commas where they are and bring in none (`Keeps`), so that it
does not matter whether a text is trimmed and cut at its commas before or after (`Keeps.strip`,
`Keeps.split`).  Mapped twice, a text is as mapped once (`upper_upper`, `lower_lower`).

What is asked of the tables is that no image of a run of code points meets a run that is mapped.
This is checked run against run and not point by point (`Shift.clears`).
-/

namespace LogRelay.Text

/-! ## Runs -/

namespace Shift

/-- A run of a single code point, which stays as it is. -/
def point (n : Nat) : Shift := ⟨n, n, 1, 0⟩

/-- What a code point of the run becomes. -/
def image (s : Shift) (n : Nat) : Nat := (n + s.delta).toNat

/-- The images of the run are code points. -/
def Fits (s : Shift) : Prop := 0 ≤ s.first + s.delta ∧ s.last + s.delta < 0x110000

/-- The images of the first run lie between the code points of the second one. -/
def interleaves (s other : Shift) : Bool :=
  (s.first == s.last || s.step % other.step == 0) &&
    s.image s.first % other.step != other.first % other.step

/-- No image of the run lies on one of some ascending runs. -/
def clears (s : Shift) : List Shift → Bool
  | [] => true
  | other :: rest =>
    bif Nat.blt other.last (s.image s.first) then s.clears rest
    else Nat.blt (s.image s.last) other.first || (s.interleaves other && s.clears rest)

instance (s : Shift) : Decidable s.Fits := inferInstanceAs (Decidable (_ ∧ _))

variable {s other : Shift} {n : Nat}

theorem covers_iff : s.covers n ↔ s.first ≤ n ∧ n ≤ s.last ∧ s.step ∣ n - s.first := by
  simp [covers, and_assoc, Nat.dvd_iff_mod_eq_zero]

theorem covers_point : (point n).covers n := by
  simp [covers, point]

theorem image_of_delta (h : s.delta = 0) : s.image n = n := by
  rw [image, h]
  exact Int.toNat_natCast n

/-- The images keep the distances of the run. -/
theorem image_eq (hf : s.Fits) (h : s.covers n) : s.image n = s.image s.first + (n - s.first) := by
  obtain ⟨hfrom, -, -⟩ := covers_iff.1 h
  obtain ⟨hlow, -⟩ := hf
  unfold image
  omega

theorem image_le (hf : s.Fits) (h : s.covers n) : s.image n ≤ s.image s.last := by
  obtain ⟨hfrom, hto, -⟩ := covers_iff.1 h
  obtain ⟨hlow, -⟩ := hf
  unfold image
  omega

theorem image_lt (hf : s.Fits) (h : s.covers n) : s.image n < 0x110000 := by
  obtain ⟨hfrom, hto, -⟩ := covers_iff.1 h
  obtain ⟨hlow, hhigh⟩ := hf
  unfold image
  omega

theorem not_covers_of_interleaves (hi : s.interleaves other) (hf : s.Fits) (h : s.covers n) :
    ¬ other.covers (s.image n) := by
  intro hother
  simp only [interleaves, Bool.and_eq_true, Bool.or_eq_true, beq_iff_eq, bne_iff_ne] at hi
  obtain ⟨hsteps, hne⟩ := hi
  obtain ⟨hfrom, hto, hstep⟩ := covers_iff.1 h
  obtain ⟨hfrom', -, hstep'⟩ := covers_iff.1 hother
  have hdistance : other.step ∣ n - s.first := by
    obtain hsingle | hmultiple := hsteps
    · have hzero : n - s.first = 0 := by omega
      exact hzero ▸ Nat.dvd_zero _
    · exact Nat.dvd_trans (Nat.dvd_of_mod_eq_zero hmultiple) hstep
  obtain ⟨k, hk⟩ := hdistance
  obtain ⟨l, hl⟩ := hstep'
  have hlow : s.image n % other.step = s.image s.first % other.step := by
    rw [image_eq hf h, hk, Nat.add_mul_mod_self_left]
  have hfirst : s.image n % other.step = other.first % other.step := by
    rw [← Nat.sub_add_cancel hfrom', hl, Nat.mul_add_mod]
  exact hne (hlow.symm.trans hfirst)

/-- If a run clears ascending runs, its images are on none of them. -/
theorem not_covers_of_clears {runs : List Shift}
    (hasc : runs.Pairwise fun r r' => r.first ≤ r'.first)
    (hc : s.clears runs) (hf : s.Fits) (h : s.covers n) : ∀ r ∈ runs, ¬ r.covers (s.image n) := by
  have hle := image_le hf h
  have hge : s.image s.first ≤ s.image n := by
    rw [image_eq hf h]
    exact Nat.le_add_right _ _
  induction runs with
  | nil => exact fun r hr => absurd hr List.not_mem_nil
  | cons other rest ih =>
    rw [List.pairwise_cons] at hasc
    unfold clears at hc
    by_cases hpassed : other.last < s.image s.first
    · have hblt : Nat.blt other.last (s.image s.first) = true := by rwa [Nat.blt_eq]
      rw [hblt, cond_true] at hc
      refine List.forall_mem_cons.2 ⟨fun hcov => ?_, ih hasc.2 hc⟩
      have := (covers_iff.1 hcov).2.1
      omega
    · have hblt : Nat.blt other.last (s.image s.first) = false := by
        rwa [Bool.eq_false_iff, ne_eq, Nat.blt_eq]
      rw [hblt, cond_false, Bool.or_eq_true, Nat.blt_eq, Bool.and_eq_true] at hc
      obtain habove | ⟨hbetween, hrest⟩ := hc
      · -- the runs that follow begin even further up
        intro r hr hcov
        have hfirst : other.first ≤ r.first := by
          obtain rfl | hr := List.mem_cons.1 hr
          · exact Nat.le_refl _
          · exact hasc.1 r hr
        have := (covers_iff.1 hcov).1
        omega
      · exact List.forall_mem_cons.2 ⟨not_covers_of_interleaves hbetween hf h, ih hasc.2 hrest⟩

end Shift

/-! ## Tables -/

/-- Blank space and the comma, which tell the entries of a list apart. -/
def Separates (c : CodePoint) : Prop := isBlank c ∨ c = ','

instance (c : CodePoint) : Decidable (Separates c) := inferInstanceAs (Decidable (_ ∨ _))

/-- The same as runs. -/
def separators : List Shift := [
  ⟨9, 13, 1, 0⟩, ⟨28, 32, 1, 0⟩, ⟨44, 44, 1, 0⟩, ⟨0x85, 0x85, 1, 0⟩, ⟨0xA0, 0xA0, 1, 0⟩,
  ⟨0x1680, 0x1680, 1, 0⟩, ⟨0x2000, 0x200A, 1, 0⟩, ⟨0x2028, 0x2029, 1, 0⟩, ⟨0x202F, 0x202F, 1, 0⟩,
  ⟨0x205F, 0x205F, 1, 0⟩, ⟨0x3000, 0x3000, 1, 0⟩]

theorem delta_of_mem_separators : ∀ s ∈ separators, s.delta = 0 := by decide

variable {c d : CodePoint}

theorem Separates.exists_covers (h : Separates c) : ∃ s ∈ separators, s.covers c.val := by
  simp only [separators, List.exists_mem_cons_iff, Shift.covers_iff, Nat.one_dvd, and_true,
    List.not_mem_nil, false_and, exists_false, or_false]
  obtain hblank | rfl := h
  · simp only [isBlank, Bool.or_eq_true, Bool.and_eq_true, decide_eq_true_eq, beq_iff_eq] at hblank
    omega
  · decide

/-- What the code points of a table become, as runs. -/
def images (shifts : List Shift) (specials : List (Nat × List Nat)) : List Shift :=
  shifts ++ specials.flatMap fun p => p.2.map .point

/-- The code points that a table maps to others, as ascending runs. -/
def mapped (shifts : List Shift) (specials : List (Nat × List Nat)) : List (List Shift) :=
  [shifts, specials.map fun p => .point p.1]

/-- The table maps no image again, no separator, and nothing to a separator. -/
structure Settled (shifts : List Shift) (specials : List (Nat × List Nat)) : Prop where
  ascending : ∀ runs ∈ separators :: mapped shifts specials, (runs.map Shift.first).IsChain (· ≤ ·)
  forms : ∀ p ∈ specials, p.2 ≠ []
  images_clear : ∀ s ∈ images shifts specials, s.Fits ∧
    ∀ runs ∈ separators :: mapped shifts specials, s.clears runs
  separators_clear : ∀ s ∈ separators, s.Fits ∧ ∀ runs ∈ mapped shifts specials, s.clears runs

section Table

variable {shifts : List Shift} {specials : List (Nat × List Nat)}

theorem mapCase_of_idle (h : ∀ runs ∈ mapped shifts specials, ∀ r ∈ runs, ¬ r.covers c.val) :
    mapCase shifts specials c = [c] := by
  have hshift : shifts.find? (·.covers c.val) = none :=
    List.find?_eq_none.2 (h shifts (by simp [mapped]))
  have hform : specials.lookup c.val = none := by
    rw [List.lookup_eq_none_iff]
    intro p hp
    refine bne_iff_ne.2 fun hc => ?_
    have hpoint : Shift.point p.1 ∈ specials.map fun p => Shift.point p.1 := List.mem_map_of_mem hp
    exact h (specials.map fun p => .point p.1) (by simp [mapped]) _ hpoint (hc ▸ Shift.covers_point)
  rw [mapCase, hshift, hform]

/-- A code point stays as it is, is shifted with its run, or has a form of its own. -/
theorem mapCase_cases (shifts : List Shift) (specials : List (Nat × List Nat)) (c : CodePoint) :
    mapCase shifts specials c = [c] ∨
      (∃ s ∈ shifts, s.covers c.val ∧
        mapCase shifts specials c = [CodePoint.ofNat (s.image c.val)]) ∨
      ∃ form, (c.val, form) ∈ specials ∧ mapCase shifts specials c = form.map CodePoint.ofNat := by
  unfold mapCase
  split
  · next s hs =>
    have hcov : s.covers c.val := List.find?_some (p := fun x : Shift => x.covers c.val) hs
    exact .inr (.inl ⟨s, List.mem_of_find?_eq_some hs, hcov, rfl⟩)
  · split
    · next form hform =>
      obtain ⟨before, after, hspecials, -⟩ := List.lookup_eq_some_iff.1 hform
      exact .inr (.inr ⟨form, by simp [hspecials], rfl⟩)
    · exact .inl rfl

/-- A code point is mapped to itself, or to images. -/
theorem mapCase_self_or_image (shifts : List Shift) (specials : List (Nat × List Nat))
    (c : CodePoint) :
    mapCase shifts specials c = [c] ∨
      ∀ d ∈ mapCase shifts specials c, ∃ s ∈ images shifts specials, ∃ n, s.covers n ∧
        d = CodePoint.ofNat (s.image n) := by
  obtain hself | ⟨s, hs, hcov, hshift⟩ | ⟨form, hmem, hform⟩ := mapCase_cases shifts specials c
  · exact .inl hself
  · refine .inr fun d hd => ?_
    rw [hshift, List.mem_singleton] at hd
    exact ⟨s, List.mem_append_left _ hs, c.val, hcov, hd⟩
  · refine .inr fun d hd => ?_
    rw [hform] at hd
    obtain ⟨n, hn, rfl⟩ := List.mem_map.1 hd
    have himage : Shift.point n ∈ images shifts specials :=
      List.mem_append_right _ (List.mem_flatMap.2 ⟨_, hmem, List.mem_map_of_mem hn⟩)
    exact ⟨.point n, himage, n, Shift.covers_point, by rw [Shift.image_of_delta rfl]⟩

namespace Settled

theorem pairwise (h : Settled shifts specials) {runs : List Shift}
    (hr : runs ∈ separators :: mapped shifts specials) :
    runs.Pairwise fun r r' => r.first ≤ r'.first :=
  List.pairwise_map.1 (List.isChain_iff_pairwise.1 (h.ascending runs hr))

theorem mapCase_ne_nil (h : Settled shifts specials) (c : CodePoint) :
    mapCase shifts specials c ≠ [] := by
  obtain hself | ⟨s, -, -, hshift⟩ | ⟨form, hmem, hform⟩ := mapCase_cases shifts specials c
  · simp [hself]
  · simp [hshift]
  · rw [hform]
    exact mt List.map_eq_nil_iff.1 (h.forms _ hmem)

/-- No image is on a run that is mapped, nor on a separator. -/
theorem idle_of_image (h : Settled shifts specials) {s : Shift}
    (hs : s ∈ images shifts specials) {n : Nat} (hn : s.covers n) :
    ∀ runs ∈ separators :: mapped shifts specials, ∀ r ∈ runs,
      ¬ r.covers (CodePoint.ofNat (s.image n)).val := by
  intro runs hr
  obtain ⟨hf, hclears⟩ := h.images_clear s hs
  rw [CodePoint.val_ofNat (Shift.image_lt hf hn)]
  exact Shift.not_covers_of_clears (h.pairwise hr) (hclears runs hr) hf hn

theorem mapCase_of_mem (h : Settled shifts specials) (hd : d ∈ mapCase shifts specials c) :
    mapCase shifts specials d = [d] := by
  obtain hself | himages := mapCase_self_or_image shifts specials c
  · rw [hself, List.mem_singleton] at hd
    rwa [hd]
  · obtain ⟨s, hs, n, hn, rfl⟩ := himages d hd
    exact mapCase_of_idle fun runs hr => h.idle_of_image hs hn runs (List.mem_cons_of_mem _ hr)

theorem mapCase_of_separates (h : Settled shifts specials) (hc : Separates c) :
    mapCase shifts specials c = [c] := by
  obtain ⟨s, hs, hcov⟩ := hc.exists_covers
  obtain ⟨hf, hclears⟩ := h.separators_clear s hs
  refine mapCase_of_idle fun runs hr => ?_
  have hidle :=
    Shift.not_covers_of_clears (h.pairwise (List.mem_cons_of_mem _ hr)) (hclears runs hr) hf hcov
  rwa [Shift.image_of_delta (delta_of_mem_separators s hs)] at hidle

theorem eq_of_separates (h : Settled shifts specials) (hd : d ∈ mapCase shifts specials c)
    (hs : Separates d) : d = c := by
  obtain hself | himages := mapCase_self_or_image shifts specials c
  · rw [hself, List.mem_singleton] at hd
    exact hd
  · obtain ⟨s, hmem, n, hn, rfl⟩ := himages d hd
    obtain ⟨r, hr, hcov⟩ := hs.exists_covers
    exact absurd hcov (h.idle_of_image hmem hn separators List.mem_cons_self r hr)

end Settled

end Table

/-! ## Code points -/

/-- The letters of ASCII as one more run of a table. -/
theorem mapCase_cons {letters : Shift} {shifts : List Shift} {specials : List (Nat × List Nat)}
    (hs : ∀ s ∈ shifts, 128 ≤ s.first) (hp : ∀ p ∈ specials, 128 ≤ p.1) (hl : letters.last < 128)
    (c : CodePoint) :
    mapCase (letters :: shifts) specials c =
      if c.val < 128 then
        if letters.covers c.val then [CodePoint.ofNat (letters.image c.val)] else [c]
      else mapCase shifts specials c := by
  have hrest (hc : c.val < 128) : mapCase shifts specials c = [c] := by
    refine mapCase_of_idle fun runs hr r hmem hcov => ?_
    have hfrom := (Shift.covers_iff.1 hcov).1
    simp only [mapped, List.mem_cons, List.not_mem_nil, or_false] at hr
    obtain rfl | rfl := hr
    · have := hs r hmem
      omega
    · obtain ⟨p, hp', rfl⟩ := List.mem_map.1 hmem
      have : p.1 ≤ c.val := hfrom
      have := hp p hp'
      omega
  have hcons : mapCase (letters :: shifts) specials c =
      if letters.covers c.val then [CodePoint.ofNat (letters.image c.val)]
        else mapCase shifts specials c := by
    unfold mapCase
    rw [List.find?_cons]
    cases letters.covers c.val with
    | true => rfl
    | false => rfl
  rw [hcons]
  by_cases hc : c.val < 128
  · rw [if_pos hc, hrest hc]
  · have hnot : ¬ letters.covers c.val := by
      rw [Shift.covers_iff]
      omega
    rw [if_neg hc, if_neg hnot]

/-- The shifts to upper case, those of ASCII included. -/
def allUpperShifts : List Shift := ⟨97, 122, 1, -32⟩ :: upperShifts

/-- The shifts to lower case, those of ASCII included. -/
def allLowerShifts : List Shift := ⟨65, 90, 1, 32⟩ :: lowerShifts

theorem upperPoint_eq (c : CodePoint) : upperPoint c = mapCase allUpperShifts upperSpecials c := by
  have himage : (c.val + (-32 : Int)).toNat = c.val - 32 := by omega
  rw [allUpperShifts, mapCase_cons (by decide +kernel) (by decide +kernel) (by decide), upperPoint]
  simp only [Shift.covers_iff, Shift.image, himage, Nat.one_dvd, and_true]

theorem lowerPoint_eq (c : CodePoint) : lowerPoint c = mapCase allLowerShifts lowerSpecials c := by
  have himage : (c.val + (32 : Int)).toNat = c.val + 32 := by omega
  rw [allLowerShifts, mapCase_cons (by decide +kernel) (by decide +kernel) (by decide), lowerPoint]
  simp only [Shift.covers_iff, Shift.image, himage, Nat.one_dvd, and_true]

theorem settled_upper : Settled allUpperShifts upperSpecials where
  ascending := by decide +kernel
  forms := by decide
  images_clear := by decide +kernel
  separators_clear := by decide +kernel

theorem settled_lower : Settled allLowerShifts lowerSpecials where
  ascending := by decide +kernel
  forms := by decide
  images_clear := by decide +kernel
  separators_clear := by decide +kernel

theorem upperPoint_of_mem (h : d ∈ upperPoint c) : upperPoint d = [d] := by
  rw [upperPoint_eq] at h ⊢
  exact settled_upper.mapCase_of_mem h

theorem lowerPoint_of_mem (h : d ∈ lowerPoint c) : lowerPoint d = [d] := by
  rw [lowerPoint_eq] at h ⊢
  exact settled_lower.mapCase_of_mem h

/-! ## Texts -/

/-- A map of texts that leaves separators where they are and brings in none. -/
structure Keeps (f : Text → Text) : Prop where
  eq_nil_iff {t : Text} : f t = [] ↔ t = []
  append_cons (s t : Text) {c : CodePoint} (h : Separates c) : f (s ++ c :: t) = f s ++ c :: f t
  mem {t : Text} {c : CodePoint} (h : Separates c) (hc : c ∈ f t) : c ∈ t

namespace Keeps

variable {f : Text → Text} {s t : Text}

theorem nil (hf : Keeps f) : f [] = [] := hf.eq_nil_iff.2 rfl

theorem cons (hf : Keeps f) (h : Separates c) (t : Text) : f (c :: t) = c :: f t := by
  have happ := hf.append_cons [] t h
  rwa [hf.nil] at happ

theorem blank_append (hf : Keeps f) (hs : ∀ c ∈ s, isBlank c) (t : Text) :
    f (s ++ t) = s ++ f t := by
  induction s with
  | nil => rfl
  | cons c s ih =>
    have hrest := ih fun d hd => hs d (List.mem_cons_of_mem c hd)
    rw [List.cons_append, hf.cons (.inl (hs c List.mem_cons_self)), hrest, List.cons_append]

theorem append_blank (hf : Keeps f) (s : Text) (ht : ∀ c ∈ t, isBlank c) :
    f (s ++ t) = f s ++ t := by
  cases t with
  | nil => rw [List.append_nil, List.append_nil]
  | cons c t =>
    have hrest := hf.blank_append (fun d hd => ht d (List.mem_cons_of_mem c hd)) []
    rw [List.append_nil, hf.nil, List.append_nil] at hrest
    rw [hf.append_cons s t (.inl (ht c List.mem_cons_self)), hrest]

/-- A separator at the front was there before. -/
theorem head?_of_separates (hf : Keeps f) (h : Separates c) (hc : c ∈ (f t).head?) :
    c ∈ t.head? := by
  obtain ⟨s, r, rfl, hs⟩ := List.eq_append_cons_of_mem (hf.mem h (List.mem_of_mem_head? hc))
  cases s with
  | nil => rfl
  | cons d s =>
    rw [hf.append_cons _ _ h, List.head?_append] at hc
    cases hfront : (f (d :: s)).head? with
    | none =>
      exact absurd (hf.eq_nil_iff.1 (List.head?_eq_none_iff.1 hfront)) (List.cons_ne_nil _ _)
    | some e =>
      rw [hfront, Option.some_or] at hc
      have hmem := hf.mem h (List.mem_of_mem_head? (hfront.trans hc))
      exact absurd hmem hs

/-- A separator at the end was there before. -/
theorem getLast?_of_separates (hf : Keeps f) (h : Separates c) (hc : c ∈ (f t).getLast?) :
    c ∈ t.getLast? := by
  obtain ⟨s, r, rfl, hr⟩ := exists_eq_append_cons_of_mem (hf.mem h (List.mem_of_getLast? hc))
  rw [hf.append_cons _ _ h, List.getLast?_append] at hc
  rw [List.getLast?_append]
  cases r with
  | nil => rfl
  | cons d r =>
    rw [List.getLast?_cons] at hc
    cases hback : (f (d :: r)).getLast? with
    | none =>
      exact absurd (hf.eq_nil_iff.1 (List.getLast?_eq_none_iff.1 hback)) (List.cons_ne_nil _ _)
    | some e =>
      rw [hback, Option.getD_some, Option.some_or] at hc
      exact absurd (hf.mem h (List.mem_of_getLast? (hback.trans hc))) hr

theorem trimmed (hf : Keeps f) (ht : Trimmed t) : Trimmed (f t) where
  head _ hc hb := ht.head _ (hf.head?_of_separates (.inl hb) hc) hb
  last _ hc hb := ht.last _ (hf.getLast?_of_separates (.inl hb) hc) hb

/-- It does not matter whether a text is trimmed before or after. -/
theorem strip (hf : Keeps f) (t : Text) : (f t).strip = f t.strip := by
  obtain ⟨before, behind, hbefore, hbehind, heq, htrimmed⟩ := exists_strip t
  have hmap : f t = before ++ (f t.strip ++ behind) := by
    rw [← hf.append_blank _ hbehind, ← hf.blank_append hbefore, ← heq]
  rw [hmap]
  exact strip_append_append hbefore (hf.trimmed htrimmed) hbehind

/-- It does not matter whether a text is cut at its commas before or after. -/
theorem split (hf : Keeps f) (t : Text) : (f t).split ',' = (t.split ',').map f := by
  show pieces (',' : CodePoint) (f t) = (pieces (',' : CodePoint) t).map f
  induction hlen : t.length using Nat.strongRecOn generalizing t with
  | ind n ih =>
    by_cases hcomma : (',' : CodePoint) ∈ t
    · obtain ⟨s, r, rfl, hs⟩ := List.eq_append_cons_of_mem hcomma
      have hfront : (',' : CodePoint) ∉ f s := mt (hf.mem (.inr rfl)) hs
      have hrest := ih r.length (by rw [← hlen]; simp; omega) r rfl
      rw [hf.append_cons _ _ (.inr rfl), pieces_append_sep hfront, pieces_append_sep hs,
        List.map_cons, hrest]
    · have hnone : (',' : CodePoint) ∉ f t := mt (hf.mem (.inr rfl)) hcomma
      rw [pieces_of_notMem hnone, pieces_of_notMem hcomma, List.map_singleton]

end Keeps

/-! ### Upper case -/

theorem upper_append (s t : Text) : upper (s ++ t) = upper s ++ upper t := List.flatMap_append

theorem keeps_upper : Keeps upper where
  eq_nil_iff {t} := by
    constructor
    · intro h
      cases t with
      | nil => rfl
      | cons c t =>
        have hne := settled_upper.mapCase_ne_nil c
        rw [← upperPoint_eq] at hne
        exact absurd (List.append_eq_nil_iff.1 h).1 hne
    · rintro rfl
      rfl
  append_cons s t {c} h := by
    have hself := settled_upper.mapCase_of_separates h
    rw [← upperPoint_eq] at hself
    have hcons : upper (c :: t) = upperPoint c ++ upper t := List.flatMap_cons
    rw [upper_append, hcons, hself]
    rfl
  mem {t c} h hc := by
    obtain ⟨d, hd, hmem⟩ := List.mem_flatMap.1 hc
    rw [upperPoint_eq] at hmem
    exact settled_upper.eq_of_separates hmem h ▸ hd

theorem upper_upper (t : Text) : upper (upper t) = upper t := by
  have hself : ∀ c ∈ upper t, upperPoint c = [c] := by
    intro c hc
    obtain ⟨d, -, hmem⟩ := List.mem_flatMap.1 hc
    exact upperPoint_of_mem hmem
  calc upper (upper t) = (upper t).flatMap fun c => [c] := List.flatMap_congr hself
    _ = upper t := List.flatMap_singleton' _

/-- The text with the letters of ASCII in lower case. -/
def lowerAscii (t : Text) : Text :=
  t.map fun c => if 65 ≤ c.val ∧ c.val ≤ 90 then CodePoint.ofNat (c.val + 32) else c

theorem upper_lowerAscii (t : Text) : upper (lowerAscii t) = upper t := by
  rw [lowerAscii, upper, List.flatMap_map]
  refine List.flatMap_congr fun c _ => ?_
  split
  · next h =>
    have hval : (CodePoint.ofNat (c.val + 32)).val = c.val + 32 := CodePoint.val_ofNat (by omega)
    have hsmall : 97 ≤ c.val + 32 ∧ c.val + 32 ≤ 122 := by omega
    have hcapital : ¬ (97 ≤ c.val ∧ c.val ≤ 122) := by omega
    have hback : CodePoint.ofNat (c.val + 32 - 32) = c := Fin.ext (CodePoint.val_ofNat (by omega))
    rw [upperPoint, upperPoint, hval, if_pos (by omega), if_pos hsmall, if_pos (by omega),
      if_neg hcapital, hback]
  · rfl

/-- Letters of ASCII that differ in case have the same upper case. -/
theorem upper_congr {s t : Text} (h : lowerAscii s = lowerAscii t) : upper s = upper t := by
  rw [← upper_lowerAscii s, h, upper_lowerAscii]

/-! ### Lower case -/

/-- The code point is its own lower case. -/
def IsLowered (c : CodePoint) : Prop := lowerPoint c = [c]

theorem IsLowered.ne_sigma (h : IsLowered c) : c.val ≠ 0x3A3 := by
  intro hc
  have hsigma : c = CodePoint.ofNat 0x3A3 := Fin.ext hc
  rw [hsigma] at h
  exact absurd h (by unfold IsLowered; decide +kernel)

/-- Whatever stands before it, a text of such code points is its own lower case. -/
theorem lowerFrom_of_isLowered {t : Text} (h : ∀ c ∈ t, IsLowered c) (before : Text) :
    lowerFrom before t = t := by
  induction t generalizing before with
  | nil => rfl
  | cons c t ih =>
    have hc := h c List.mem_cons_self
    have hrest := ih (fun d hd => h d (List.mem_cons_of_mem c hd)) (c :: before)
    rw [lowerFrom, if_neg hc.ne_sigma, hc, hrest]
    rfl

/-- What a code point becomes, a sigma included. -/
theorem mem_lowerFrom {before t : Text} (h : d ∈ lowerFrom before t) :
    (∃ c ∈ t, d ∈ lowerPoint c) ∨ d = CodePoint.ofNat 0x3C2 ∨ d = CodePoint.ofNat 0x3C3 := by
  induction t generalizing before with
  | nil => exact absurd h List.not_mem_nil
  | cons c t ih =>
    rw [lowerFrom, List.mem_append] at h
    obtain hhead | hrest := h
    · split at hhead
      · rw [List.mem_singleton] at hhead
        split at hhead
        · exact .inr (.inl hhead)
        · exact .inr (.inr hhead)
      · exact .inl ⟨c, List.mem_cons_self, hhead⟩
    · exact (ih hrest).imp_left fun ⟨e, he, hmem⟩ => ⟨e, List.mem_cons_of_mem c he, hmem⟩

theorem isLowered_of_mem_lower {t : Text} (h : d ∈ lower t) : IsLowered d := by
  obtain ⟨c, -, hmem⟩ | rfl | rfl := mem_lowerFrom h
  · exact lowerPoint_of_mem hmem
  · unfold IsLowered
    decide +kernel
  · unfold IsLowered
    decide +kernel

theorem lower_lower (t : Text) : lower (lower t) = lower t :=
  lowerFrom_of_isLowered (fun _ h => isLowered_of_mem_lower h) []

/-- No separator is passed over in looking for the end of a word, and none is part of one. -/
theorem Separates.inRuns_eq (h : Separates c) :
    inRuns caseIgnorableRuns c = false ∧ inRuns casedRuns c = false := by
  have hapart : ∀ s ∈ separators, ∀ run ∈ caseIgnorableRuns ++ casedRuns, s.last < run.1 ∨
      run.2 < s.first := by
    decide +kernel
  obtain ⟨s, hs, hcov⟩ := h.exists_covers
  obtain ⟨hfrom, hto, -⟩ := Shift.covers_iff.1 hcov
  have hout (run : Nat × Nat) (hr : run ∈ caseIgnorableRuns ++ casedRuns) :
      ¬ (decide (run.1 ≤ c.val) && decide (c.val ≤ run.2)) = true := by
    have := hapart s hs run hr
    simp only [Bool.and_eq_true, decide_eq_true_eq]
    omega
  exact ⟨List.any_eq_false.2 fun run hr => hout run (List.mem_append_left _ hr),
    List.any_eq_false.2 fun run hr => hout run (List.mem_append_right _ hr)⟩

/-- What stands behind a separator does not count. -/
theorem meetsCased_append_cons (s t : Text) (h : Separates c) :
    meetsCased (s ++ c :: t) = meetsCased s := by
  obtain ⟨hignorable, hcased⟩ := h.inRuns_eq
  unfold meetsCased
  rw [List.find?_append]
  cases s.find? fun c => !inRuns caseIgnorableRuns c with
  | some d => rfl
  | none => simp [hignorable, hcased]

/-- Nor does what stands in front of one. -/
theorem lowerFrom_append_cons (before front : Text) (h : Separates c) (t : Text) :
    lowerFrom (before ++ c :: front) t = lowerFrom before t := by
  induction t generalizing before with
  | nil => rfl
  | cons d t ih => rw [lowerFrom, lowerFrom, meetsCased_append_cons _ _ h, ← List.cons_append, ih]

theorem lowerPoint_of_separates (h : Separates c) : lowerPoint c = [c] := by
  rw [lowerPoint_eq]
  exact settled_lower.mapCase_of_separates h

theorem lowerFrom_cons (before t : Text) (h : Separates c) :
    lowerFrom before (c :: t) = c :: lower t := by
  have hself := lowerPoint_of_separates h
  have hrest := lowerFrom_append_cons [] before h t
  rw [List.nil_append] at hrest
  rw [lowerFrom, if_neg (IsLowered.ne_sigma hself), hself, hrest]
  rfl

theorem keeps_lower : Keeps lower where
  eq_nil_iff {t} := by
    constructor
    · intro h
      cases t with
      | nil => rfl
      | cons c t =>
        have hne := settled_lower.mapCase_ne_nil c
        rw [← lowerPoint_eq] at hne
        have hhead := (List.append_eq_nil_iff.1 h).1
        split at hhead
        · cases hhead
        · exact absurd hhead hne
    · rintro rfl
      rfl
  append_cons s t {c} h := by
    have hfrom (before : Text) : lowerFrom before (s ++ c :: t) =
        lowerFrom before s ++ c :: lower t := by
      induction s generalizing before with
      | nil => exact lowerFrom_cons before t h
      | cons d s ih =>
        rw [List.cons_append, lowerFrom, lowerFrom, meetsCased_append_cons _ _ h, ih,
          List.append_assoc]
    exact hfrom []
  mem {t c} h hc := by
    obtain ⟨d, hd, hmem⟩ | rfl | rfl := mem_lowerFrom hc
    · rw [lowerPoint_eq] at hmem
      exact settled_lower.eq_of_separates hmem h ▸ hd
    · exact absurd h (by decide +kernel)
    · exact absurd h (by decide +kernel)

end LogRelay.Text
