import LogRelay.Proofs.Text
import LogRelay.QueueManager

/-!
# Stanzas are independent

A text is cut at every line end, so what stands behind a line feed is cut by itself
(`Text.Ended.lines_append`).  A header closes the stanza before it as the end of the list does
(`Stanza.ofLines_append`).  So the queue managers of a list are those before a header and those from
the header on, and what is changed inside one stanza is of no consequence for the others
(`QueueManager.parse_append`).
-/

namespace LogRelay

/-! ## Lines of a text -/

namespace Text

variable {c : CodePoint} {s t line : Text}

/-- The text is empty or ends in a line feed. -/
def Ended (t : Text) : Prop := t = [] ∨ t.getLast? = some ('\n' : CodePoint)

/-- The text is part of one line. -/
def IsLine (t : Text) : Prop := ∀ c ∈ t, ¬ isLineEnd c

instance (t : Text) : Decidable (Ended t) := inferInstanceAs (Decidable (_ ∨ _))

-- the instance for all code points would go through each of them
instance (t : Text) : Decidable (IsLine t) :=
  decidable_of_iff (t.all fun c => !isLineEnd c) (by simp [IsLine])

theorem IsLine.append (hs : IsLine s) (ht : IsLine t) : IsLine (s ++ t) :=
  List.forall_mem_append.2 ⟨hs, ht⟩

theorem ended_append_lineFeed (t : Text) : (t ++ "\n").Ended := .inr (List.getLast?_concat ..)

theorem Ended.append (hs : Ended s) (ht : Ended t) : Ended (s ++ t) := by
  obtain rfl | ht := ht
  · rwa [List.append_nil]
  · right
    rw [List.getLast?_append, ht]
    rfl

theorem linesFrom_lineEnd_cons (hend : isLineEnd c) (hreturn : c ≠ '\r') (line t : Text) :
    linesFrom line (c :: t) = line.reverse :: lines t := by
  cases t with
  | nil => simp [linesFrom, hend, lines]
  | cons d t =>
    rw [linesFrom, if_neg fun h => hreturn h.1, if_pos hend]
    rfl

theorem linesFrom_lineFeed_cons (line t : Text) :
    linesFrom line (('\n' : CodePoint) :: t) = line.reverse :: lines t :=
  linesFrom_lineEnd_cons (by decide) (by decide) line t

theorem linesFrom_cons (h : ¬ isLineEnd c) (line t : Text) :
    linesFrom line (c :: t) = linesFrom (c :: line) t := by
  cases t with
  | nil => simp [linesFrom, h]
  | cons d t =>
    have hreturn : c ≠ '\r' := by
      rintro rfl
      exact h (by decide)
    rw [linesFrom, if_neg fun h => hreturn h.1, if_neg h]

theorem linesFrom_append (h : IsLine s) (line t : Text) :
    linesFrom line (s ++ t) = linesFrom (s.reverse ++ line) t := by
  induction s generalizing line with
  | nil => rfl
  | cons c s ih =>
    unfold IsLine at h
    rw [List.forall_mem_cons] at h
    rw [List.cons_append, linesFrom_cons h.1, ih h.2, List.reverse_cons, List.append_assoc,
      List.singleton_append]

theorem lines_append_cons (h : IsLine s) (t : Text) :
    lines (s ++ ('\n' : CodePoint) :: t) = s :: lines t := by
  rw [lines, linesFrom_append h, linesFrom_lineFeed_cons]
  simp

/-- What stands behind a line feed is cut by itself, wherever the cutting began. -/
theorem linesFrom_append_lineFeed (line s t : Text) :
    linesFrom line (s ++ ('\n' : CodePoint) :: t) =
      linesFrom line (s ++ [('\n' : CodePoint)]) ++ lines t := by
  -- the last code point of s matters: a carriage return and the line feed behind it are one line
  -- end
  fun_induction linesFrom line s with
  | case1 line hempty => exact linesFrom_lineFeed_cons line t
  | case2 line hne => exact linesFrom_lineFeed_cons line t
  | case3 line c hend =>
    rw [List.singleton_append, List.singleton_append]
    by_cases hreturn : c = '\r'
    · simp [linesFrom, hreturn, lines]
    · rw [linesFrom_lineEnd_cons hend hreturn, linesFrom_lineEnd_cons hend hreturn, lines,
        linesFrom_lineFeed_cons]
      rfl
  | case4 line c hend =>
    rw [List.singleton_append, List.singleton_append, linesFrom_cons hend, linesFrom_cons hend,
      linesFrom_lineFeed_cons, linesFrom_lineFeed_cons]
    rfl
  | case5 line c d s hreturn ih =>
    simp only [List.cons_append, linesFrom, if_pos hreturn, ih]
  | case6 line c d s hreturn hend ih =>
    rw [List.cons_append, List.cons_append] at ih
    simp only [List.cons_append, linesFrom, if_neg hreturn, if_pos hend, ih]
  | case7 line c d s hreturn hend ih =>
    rw [List.cons_append, List.cons_append] at ih
    simp only [List.cons_append, linesFrom, if_neg hreturn, if_neg hend, ih]

theorem Ended.lines_append (h : Ended s) (t : Text) : lines (s ++ t) = lines s ++ lines t := by
  obtain rfl | h := h
  · rfl
  · obtain ⟨u, rfl⟩ := List.getLast?_eq_some_iff.1 h
    rw [List.append_assoc, List.singleton_append]
    exact linesFrom_append_lineFeed [] u t

end Text

/-! ## Kinds of lines -/

namespace ListLine

variable {line : Text}

/-- The line is blank or a comment. -/
def IsFiller (line : Text) : Prop :=
  line.strip = [] ∨ line.strip.head? = some ('#' : CodePoint) ∨
    line.strip.head? = some (';' : CodePoint)

/-- The line begins a stanza: it ends in a colon and gives no value, and it is no comment. -/
def IsHeader (line : Text) : Prop :=
  ¬ IsFiller line ∧ line.strip.getLast? = some (':' : CodePoint) ∧ ('=' : CodePoint) ∉ line.strip

instance : DecidablePred IsFiller := fun _ => inferInstanceAs (Decidable (_ ∨ _ ∨ _))

instance : DecidablePred IsHeader := fun _ => inferInstanceAs (Decidable (_ ∧ _ ∧ _))

theorem ofText_of_isFiller (h : IsFiller line) : ofText line = .other := by
  unfold ofText
  obtain hblank | hhash | hsemicolon := h
  · simp [hblank, cutFirst]
  · simp [hhash]
  · simp [hsemicolon]

theorem ofText_of_isHeader (h : IsHeader line) : ofText line = .header line.strip := by
  obtain ⟨hfiller, hcolon, hequals⟩ := h
  simp only [IsFiller, not_or] at hfiller
  unfold ofText
  simp [hfiller, cutFirst_eq_none_iff.2 hequals, hcolon]

theorem ofText_of_cutFirst {key value : Text} (hfiller : ¬ IsFiller line)
    (h : cutFirst ('=' : CodePoint) line.strip = some (key, value)) :
    ofText line = .attribute key.strip value.strip := by
  simp only [IsFiller, not_or] at hfiller
  unfold ofText
  simp [hfiller, h]

theorem isHeader_of_ofText {name : Text} (h : ofText line = .header name) : IsHeader line := by
  unfold ofText at h
  dsimp only at h
  split at h
  · cases h
  · next hcomment =>
    split at h
    · cases h
    · next hnone =>
      split at h
      · next hcolon =>
        have hblank : line.strip ≠ [] := by
          intro hnil
          rw [hnil] at hcolon
          cases hcolon
        refine ⟨?_, hcolon, cutFirst_eq_none_iff.1 hnone⟩
        simpa [IsFiller, hblank] using hcomment
      · cases h

end ListLine

/-! ## Stanzas -/

namespace Stanza

open ListLine

/-- Whatever is in these lines belongs to a stanza that begins in them. -/
inductive Opens : List ListLine → Prop
  | nil : Opens []
  | header {name : Text} {ls : List ListLine} : Opens (.header name :: ls)
  | other {ls : List ListLine} (rest : Opens ls) : Opens (.other :: ls)

variable {ls ls' : List ListLine}

/-- Such lines close the stanza before them. -/
theorem ofLines_of_opens (h : Opens ls) (current : Option Stanza) :
    ofLines current ls = closed current ++ ofLines none ls := by
  induction h with
  | nil => simp [ofLines, closed]
  | header => simp [ofLines, closed]
  | other rest ih => simpa [ofLines] using ih

theorem ofLines_append (h : Opens ls') (current : Option Stanza) (ls : List ListLine) :
    ofLines current (ls ++ ls') = ofLines current ls ++ ofLines none ls' := by
  induction ls generalizing current with
  | nil => exact ofLines_of_opens h current
  | cons l ls ih => cases l <;> simp [ofLines, ih]

/-- The first line that is no filler, if there is one, begins a stanza. -/
def Begins (t : Text) : Prop := ∀ line ∈ t.lines.find? (fun line => ¬ IsFiller line), IsHeader line

instance (t : Text) : Decidable (Begins t) :=
  inferInstanceAs (Decidable (∀ line ∈ t.lines.find? (fun line => ¬ IsFiller line), IsHeader line))

theorem Begins.opens {t : Text} (h : Begins t) : Opens (t.lines.map ofText) := by
  unfold Begins at h
  generalize t.lines = lines at h ⊢
  induction lines with
  | nil => exact .nil
  | cons line lines ih =>
    by_cases hfiller : IsFiller line
    · rw [List.find?_cons_of_neg (by simpa using hfiller)] at h
      rw [List.map_cons, ofText_of_isFiller hfiller]
      exact .other (ih h)
    · rw [List.find?_cons_of_pos (by simpa using hfiller)] at h
      rw [List.map_cons, ofText_of_isHeader (h line rfl)]
      exact .header

end Stanza

/-! ## Queue managers -/

namespace QueueManager

open ListLine Stanza

variable {a b : Text}

theorem parse_append_of_opens (ha : a.Ended) (hb : Opens (b.lines.map ofText)) :
    parse (a ++ b) = parse a ++ parse b := by
  unfold parse
  rw [ha.lines_append, List.map_append, ofLines_append hb, List.map_append]

/-- A text that ends in a line feed and one that begins a stanza are read each by itself.  So the
queue managers before and behind a stanza do not depend on what stands under its header. -/
theorem parse_append (ha : a.Ended) (hb : Begins b) :
    parse (a ++ b) = parse a ++ parse b ∧
    ∀ header body : Text, IsHeader header → header.IsLine → body.Ended →
      parse (a ++ (header ++ "\n" ++ body) ++ b) =
        parse a ++ parse (header ++ "\n" ++ body) ++ parse b := by
  refine ⟨parse_append_of_opens ha hb.opens, fun header body hheader hline hbody => ?_⟩
  have hopens : ∀ t, Opens ((header ++ "\n" ++ t).lines.map ofText) := by
    intro t
    have hlines : (header ++ "\n" ++ t).lines = header :: t.lines := by
      rw [List.append_assoc]
      exact Text.lines_append_cons hline t
    rw [hlines, List.map_cons, ofText_of_isHeader hheader]
    exact .header
  have hended : (header ++ "\n" ++ body).Ended := (Text.ended_append_lineFeed header).append hbody
  calc parse (a ++ (header ++ "\n" ++ body) ++ b)
      = parse (a ++ (header ++ "\n" ++ (body ++ b))) := by simp only [List.append_assoc]
    _ = parse a ++ parse (header ++ "\n" ++ (body ++ b)) := parse_append_of_opens ha (hopens _)
    _ = parse a ++ parse (header ++ "\n" ++ body ++ b) := by simp only [List.append_assoc]
    _ = parse a ++ parse (header ++ "\n" ++ body) ++ parse b := by
      rw [parse_append_of_opens hended hb.opens]
      exact (List.append_assoc _ _ _).symm

/-- A manager of which a name comes twice and a line says nothing. -/
def untidyList : Text := "QueueManager:\r\n Name=A\n Name = B\njunk\n"

theorem parse_untidyList :
    parse (untidyList ++ "\t# more\n\nOther:\nName=C\n") =
      parse untidyList ++ parse "\t# more\n\nOther:\nName=C\n" ∧
    parse (untidyList ++ ("QueueManager:" ++ "\n" ++ "=\n:\n") ++ "Other:") =
      parse untidyList ++ parse ("QueueManager:" ++ "\n" ++ "=\n:\n") ++ parse "Other:" := by
  constructor
  · exact (parse_append (by decide) (by decide +kernel)).1
  · exact (parse_append (by decide) (by decide +kernel)).2 _ _ (by decide +kernel)
      (by decide) (by decide)

end QueueManager

end LogRelay
