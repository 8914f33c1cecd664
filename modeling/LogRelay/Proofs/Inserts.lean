import LogRelay.Proofs.Choice
import Mathlib.Data.List.Nodup

/-!
# Which inserts are listed

The inserts of a record are all its comments and those of its arithmetic inserts that are not zero,
each once, in ascending order.  The order is that of a dictionary (`Text.le_iff`), so it leaves one
way to arrange them.  The first arithmetic insert without a number stops the listing and is reported
(`collect_lists`).
-/

namespace LogRelay

/-! ## The order of texts -/

namespace Text

variable {s t u : Text} {ts ts' : List Text}

/-- A text is another one or stands before it in a dictionary. -/
def UpTo (s t : Text) : Prop := s = t ∨ List.Lex (fun a b : CodePoint => a.val < b.val) s t

theorem upTo_cons_iff {a b : CodePoint} :
    UpTo (a :: s) (b :: t) ↔ a.val < b.val ∨ a = b ∧ UpTo s t := by
  unfold UpTo
  constructor
  · rintro (h | h)
    · rw [List.cons.injEq] at h
      exact .inr ⟨h.1, .inl h.2⟩
    · cases h with
      | rel h => exact .inl h
      | cons h => exact .inr ⟨rfl, .inr h⟩
  · rintro (h | ⟨rfl, rfl | h⟩)
    · exact .inr (.rel h)
    · exact .inl rfl
    · exact .inr (.cons h)

theorem le_iff : le s t ↔ UpTo s t := by
  fun_induction le s t with
  | case1 t =>
    cases t with
    | nil => simp [UpTo]
    | cons b t => simp [UpTo]
  | case2 a s => simp [UpTo]
  | case3 s b t ih => simp [upTo_cons_iff, ih]
  | case4 a s b t hne => simp [upTo_cons_iff, hne]

instance (s t : Text) : Decidable (UpTo s t) := decidable_of_iff (le s t) le_iff

theorem UpTo.trans (h : UpTo s t) (h' : UpTo t u) : UpTo s u := by
  obtain rfl | h := h
  · exact h'
  obtain rfl | h' := h'
  · exact .inr h
  · exact .inr (List.lex_trans (fun hab hbc => Nat.lt_trans hab hbc) h h')

theorem upTo_total (s t : Text) : UpTo s t ∨ UpTo t s := by
  induction s generalizing t with
  | nil => cases t <;> simp [UpTo]
  | cons a s ih =>
    cases t with
    | nil => simp [UpTo]
    | cons b t =>
      rw [upTo_cons_iff, upTo_cons_iff]
      obtain hlt | heq | hgt := Nat.lt_trichotomy a.val b.val
      · exact .inl (.inl hlt)
      · obtain rfl := Fin.ext heq
        exact (ih t).imp (fun h => .inr ⟨rfl, h⟩) (fun h => .inr ⟨rfl, h⟩)
      · exact .inr (.inl hgt)

theorem UpTo.antisymm (h : UpTo s t) (h' : UpTo t s) : s = t := by
  induction s generalizing t with
  | nil =>
    obtain h | h := h'
    · exact h.symm
    · cases h
  | cons a s ih =>
    cases t with
    | nil =>
      obtain h | h := h
      · exact h
      · cases h
    | cons b t =>
      rw [upTo_cons_iff] at h h'
      obtain hlt | ⟨rfl, hst⟩ := h
      · obtain hgt | ⟨rfl, -⟩ := h' <;> omega
      · obtain hgt | ⟨-, hts⟩ := h'
        · omega
        · rw [ih hst hts]

theorem pairwise_sort (ts : List Text) : (sort ts).Pairwise UpTo := by
  have hsorted : (sort ts).Pairwise fun s t => le s t = true := by
    apply List.pairwise_mergeSort
    · intro s t u hst htu
      exact le_iff.2 ((le_iff.1 hst).trans (le_iff.1 htu))
    · intro s t
      rw [Bool.or_eq_true, le_iff, le_iff]
      exact upTo_total s t
  exact hsorted.imp le_iff.1

theorem sort_perm (ts : List Text) : (sort ts).Perm ts := List.mergeSort_perm ts le

/-- There is one ascending arrangement of some texts. -/
theorem eq_of_pairwise_of_perm (h : ts.Pairwise UpTo) (h' : ts'.Pairwise UpTo)
    (hperm : ts.Perm ts') : ts = ts' := by
  apply List.Perm.eq_of_pairwise _ h h' hperm
  intro s t _ _ hst hts
  exact hst.antisymm hts

end Text

/-! ## Numbers -/

/-- The number that a value is; truth values are none. -/
def Json.number? : Json → Option Number
  | .int n => some (.int n)
  | .float d => some (.float d)
  | _ => none

theorem Json.toJson_of_number? {v : Json} {n : Number} (h : v.number? = some n) : n.toJson = v := by
  cases v with
  | int | float =>
    obtain rfl := Option.some.inj h
    rfl
  | _ => cases h

theorem Message.number?_of_get? {m : Message} {key : Text} {v : Json} (h : m.get? key = some v) :
    m.number? key = v.number? := by
  unfold number?
  rw [h]
  cases v <;> rfl

/-! ## Listed inserts -/

namespace Insert

variable {m : Message} {p : Text × Json} {ms : List (Text × Json)} {key t : Text}
  {v : Json} {ts : List Text}

/-- A comment insert. -/
def isComment (p : Text × Json) : Bool := commentPrefix.isPrefixOf p.1

/-- An arithmetic insert that is no number. -/
def isUnfit (p : Text × Json) : Bool := arithPrefix.isPrefixOf p.1 && p.2.number?.isNone

/-- An arithmetic insert that is a number other than zero. -/
def isCounted (p : Text × Json) : Bool := arithPrefix.isPrefixOf p.1 && p.2.number?.any (!·.isZero)

/-- A member as an insert, with another beginning in place of that of its key. -/
def renamed (old new : Text) (p : Text × Json) : Text :=
  new ++ p.1.drop old.length ++ "(" ++ valueText p.2 ++ ")"

/-- The comments among some members, whatever their values. -/
def comments (ms : List (Text × Json)) : List Text :=
  (ms.filter isComment).map (renamed "ibm_comment" "Comment")

/-- The arithmetic inserts among some members that are not zero. -/
def numbers (ms : List (Text × Json)) : List Text :=
  (ms.filter isCounted).map (renamed "ibm_arith" "Arith")

theorem isUnfit_iff : isUnfit (key, v) ↔ arithPrefix <+: key ∧ v.number? = none := by
  unfold isUnfit
  rw [Bool.and_eq_true, List.isPrefixOf_iff_prefix, Option.isNone_iff_eq_none]

theorem isUnfit_iff_isMisfit (h : m.get? key = some v) : isUnfit (key, v) ↔ IsMisfit m key := by
  rw [isUnfit_iff, IsMisfit, Message.number?_of_get? h]

theorem isComment_iff : isComment (key, v) ↔ commentPrefix <+: key := List.isPrefixOf_iff_prefix

theorem isCounted_iff :
    isCounted (key, v) ↔ arithPrefix <+: key ∧ ∃ n, v.number? = some n ∧ n.isZero = false := by
  unfold isCounted
  rw [Bool.and_eq_true, List.isPrefixOf_iff_prefix, Option.any_eq_true]
  simp only [Bool.not_eq_true']

theorem renamed_comment (rest : Text) (v : Json) :
    renamed "ibm_comment" "Comment" (commentPrefix ++ rest, v) =
      "CommentInsert" ++ rest ++ "(" ++ valueText v ++ ")" := by
  have hlength : ("ibm_comment" : Text).length = 11 := by decide
  unfold renamed
  rw [hlength, comment_drop]

theorem renamed_arith (rest : Text) (v : Json) :
    renamed "ibm_arith" "Arith" (arithPrefix ++ rest, v) =
      "ArithInsert" ++ rest ++ "(" ++ valueText v ++ ")" := by
  have hlength : ("ibm_arith" : Text).length = 9 := by decide
  unfold renamed
  rw [hlength, arith_drop]

/-- What a member lists, said by its key and its value. -/
theorem lists_iff (h : m.get? key = some v) : Lists m key t ↔
    isComment (key, v) ∧ t = renamed "ibm_comment" "Comment" (key, v) ∨
      isCounted (key, v) ∧ t = renamed "ibm_arith" "Arith" (key, v) := by
  constructor
  · intro hlists
    cases hlists with
    | @comment rest w value =>
      obtain rfl := Option.some.inj (h.symm.trans value)
      refine .inl ⟨isComment_iff.2 (List.prefix_append _ _), ?_⟩
      rw [renamed_comment]
    | @number rest n value nonzero =>
      rw [Message.number?_of_get? h] at value
      obtain rfl := Json.toJson_of_number? value
      refine .inr ⟨isCounted_iff.2 ⟨List.prefix_append _ _, n, value, nonzero⟩, ?_⟩
      rw [renamed_arith]
  · rintro (⟨hcomment, rfl⟩ | ⟨hcounted, rfl⟩)
    · obtain ⟨rest, rfl⟩ := isComment_iff.1 hcomment
      rw [renamed_comment]
      exact Lists.comment h
    · obtain ⟨⟨rest, rfl⟩, n, hn, hnonzero⟩ := isCounted_iff.1 hcounted
      obtain rfl := Json.toJson_of_number? hn
      rw [renamed_arith]
      exact Lists.number ((Message.number?_of_get? h).trans hn) hnonzero

theorem not_isCounted_of_isComment (h : isComment (key, v)) : ¬ isCounted (key, v) := by
  intro hcounted
  obtain ⟨⟨rest, rfl⟩, -⟩ := isCounted_iff.1 hcounted
  exact not_commentPrefix_prefix (isComment_iff.1 h)

/-- What members list one after another is their comments and numbers, in another order. -/
theorem perm_of_listedBy (hms : ∀ p ∈ ms, m.get? p.1 = some p.2)
    (h : ListedBy m (ms.map Prod.fst) ts) : ts.Perm (comments ms ++ numbers ms) := by
  induction ms generalizing ts with
  | nil =>
    cases h
    exact List.Perm.refl []
  | cons p ms ih =>
    obtain ⟨key, v⟩ := p
    rw [List.forall_mem_cons] at hms
    obtain ⟨hget, hms⟩ := hms
    rw [List.map_cons] at h
    cases h with
    | listed lists rest =>
      -- a comment is no number, so the member counts on one side only
      obtain ⟨hcomment, rfl⟩ | ⟨hcounted, rfl⟩ := (lists_iff hget).1 lists
      · have hcounted : ¬ isCounted (key, v) := not_isCounted_of_isComment hcomment
        simp only [comments, numbers, List.filter_cons_of_pos hcomment,
          List.filter_cons_of_neg hcounted, List.map_cons]
        exact (ih hms rest).cons _
      · have hcomment : ¬ isComment (key, v) := fun h => not_isCounted_of_isComment h hcounted
        simp only [comments, numbers, List.filter_cons_of_neg hcomment,
          List.filter_cons_of_pos hcounted, List.map_cons]
        exact ((ih hms rest).cons _).trans List.perm_middle.symm
    | passed lists rest =>
      have hcomment : ¬ isComment (key, v) := fun h => lists _ ((lists_iff hget).2 (.inl ⟨h, rfl⟩))
      have hcounted : ¬ isCounted (key, v) := fun h => lists _ ((lists_iff hget).2 (.inr ⟨h, rfl⟩))
      simp only [comments, numbers, List.filter_cons_of_neg hcomment,
        List.filter_cons_of_neg hcounted]
      exact ih hms rest

/-! ### The first misfit -/

section Distinct

variable (hd : m.keys.Nodup)

include hd

theorem fits_iff : Fits m ↔ ∀ p ∈ m.members, ¬ isUnfit p := by
  have hget : ∀ p ∈ m.members, m.get? p.1 = some p.2 :=
    fun p hp => (Message.get?_eq_some_iff hd).2 hp
  constructor
  · intro hfits p hp hunfit
    exact hfits p.1 (List.mem_map_of_mem hp) ((isUnfit_iff_isMisfit (hget p hp)).1 hunfit)
  · intro hfits key hkey hmisfit
    obtain ⟨p, hp, rfl⟩ := List.mem_map.1 hkey
    exact hfits p hp ((isUnfit_iff_isMisfit (hget p hp)).2 hmisfit)

theorem exists_collect (h : Fits m) : ∃ ts, collect m = .ok ts ∧ ts.Pairwise Text.UpTo ∧
    ts.Perm (comments m.members ++ numbers m.members) := by
  obtain ⟨ts, hts⟩ := exists_listedBy m m.keys
  refine ⟨Text.sort ts, collect_of_fits h hts, Text.pairwise_sort ts, ?_⟩
  apply (Text.sort_perm ts).trans
  exact perm_of_listedBy (fun p hp => (Message.get?_eq_some_iff hd).2 hp) hts

end Distinct

end Insert

end LogRelay
