import LogRelay.Proofs.Record
import LogRelay.Proofs.Stanzas

/-!
# Lists of queue managers that are printed and read

`Printed` says which lines list some queue managers: a stanza for each with its attributes in any
order, stanzas of other kinds around them, and blank lines and comments anywhere.  Whatever is
written in this way is read as these queue managers (`QueueManager.parse_printed`).
-/

namespace LogRelay

/-! ## Lines that end in a line feed -/

namespace Text

variable {ls : List Text}

instance (t : Text) : Decidable (Trimmed t) :=
  decidable_of_iff (strip t = t) ⟨trimmed_of_strip_eq, strip_of_trimmed⟩

theorem lines_terminated (h : ∀ l ∈ ls, IsLine l) : lines (ls.flatMap (· ++ "\n")) = ls := by
  induction ls with
  | nil => rfl
  | cons l ls ih =>
    rw [List.forall_mem_cons] at h
    rw [List.flatMap_cons, List.append_assoc]
    exact (lines_append_cons h.1 _).trans (congrArg (l :: ·) (ih h.2))

end Text

namespace QueueManager

open ListLine Stanza

/-! ## Printed lists -/

/-- Spaces and tabs. -/
def IsIndent (t : Text) : Prop := ∀ c ∈ t, c = ' ' ∨ c = '\t'

/-- The attributes of a queue manager. -/
def attributes (q : QueueManager) : Stanza :=
  [("Name", q.name), ("Prefix", q.base), ("Directory", q.directory), ("DataPath", q.dataPath)]

/-- The fields have no white space at their ends and are each on one line. -/
def IsPlain (q : QueueManager) : Prop := ∀ a ∈ q.attributes, a.2.Trimmed ∧ a.2.IsLine

instance : DecidablePred IsIndent :=
  fun t => decidable_of_iff (t.all fun c => c = ' ' ∨ c = '\t') (by simp [IsIndent])

instance : DecidablePred IsPlain :=
  fun q => inferInstanceAs (Decidable (∀ a ∈ q.attributes, a.2.Trimmed ∧ a.2.IsLine))

/-- Lines that give some attributes in their order, with blank lines and comments between them. -/
inductive Gives : Stanza → List Text → Prop
  | nil : Gives [] []
  | entry (indent : Text) {key value : Text} {s : Stanza} {ls : List Text}
      (indented : IsIndent indent)
      (rest : Gives s ls) : Gives ((key, value) :: s) ((indent ++ key ++ "=" ++ value) :: ls)
  | filler {line : Text} {s : Stanza} {ls : List Text} (filler : IsFiller line)
      (single : line.IsLine) (rest : Gives s ls) : Gives s (line :: ls)

/-- Lines that list some queue managers in their order. -/
inductive Printed : List QueueManager → List Text → Prop
  | nil : Printed [] []
  | filler {line : Text} {qs : List QueueManager} {ls : List Text} (filler : IsFiller line)
      (single : line.IsLine) (rest : Printed qs ls) : Printed qs (line :: ls)
  /-- A stanza of another kind, with anything in it that is no header. -/
  | other (header : Text) (body : List Text) {qs : List QueueManager} {ls : List Text}
      (begins : IsHeader header)
      (kind : header.strip ≠ managerHeader) (plain : ∀ line ∈ body, ¬ IsHeader line)
      (single : ∀ line ∈ header :: body, Text.IsLine line) (rest : Printed qs ls) :
      Printed qs (header :: (body ++ ls))
  /-- The stanza of a queue manager, with its attributes in any order. -/
  | manager (indent : Text) {body : List Text} {s : Stanza} {q : QueueManager}
      {qs : List QueueManager} {ls : List Text}
      (indented : IsIndent indent) (order : s.Perm q.attributes) (gives : Gives s body)
      (rest : Printed qs ls) :
      Printed (q :: qs) ((indent ++ managerHeader) :: (body ++ ls))

/-! ## Attributes -/

/-- The keys of attributes. -/
def attributeKeys : List Text := ["Name", "Prefix", "Directory", "DataPath"]

variable {indent key value : Text} {s : Stanza} {q : QueueManager} {qs : List QueueManager}
  {body ls : List Text}

theorem IsIndent.isBlank (h : IsIndent indent) : ∀ c ∈ indent, Text.isBlank c := by
  intro c hc
  obtain rfl | rfl := h c hc <;> decide

theorem IsIndent.isLine (h : IsIndent indent) : indent.IsLine := by
  intro c hc
  obtain rfl | rfl := h c hc <;> decide

theorem plain_attributeKeys : ∀ key ∈ attributeKeys,
    key.strip = key ∧ ¬ IsFiller key ∧ ('=' : CodePoint) ∉ key ∧ key.IsLine := by
  decide

/-- A key and a value that can be printed. -/
def IsPlainAttribute (a : Text × Text) : Prop := a.1 ∈ attributeKeys ∧ a.2.Trimmed ∧ a.2.IsLine

theorem isPlainAttribute_of_perm (h : s.Perm q.attributes) (hq : q.IsPlain) :
    ∀ a ∈ s, IsPlainAttribute a := by
  intro a ha
  have hmem : a ∈ q.attributes := h.mem_iff.1 ha
  have hkey : a.1 ∈ q.attributes.map Prod.fst := List.mem_map_of_mem hmem
  exact ⟨hkey, hq a hmem⟩

theorem nodup_of_perm (h : s.Perm q.attributes) : (s.map Prod.fst).Nodup := by
  have hkeys : (q.attributes.map Prod.fst).Nodup := show attributeKeys.Nodup by decide
  exact (h.map Prod.fst).nodup_iff.2 hkeys

theorem trimmed_attribute (hkey : key.Trimmed) (hvalue : value.Trimmed) :
    (key ++ ('=' : CodePoint) :: value).Trimmed where
  head c hc := by
    cases key with
    | nil =>
      obtain rfl := Option.some.inj hc
      decide
    | cons d key => exact hkey.head c hc
  last c hc := by
    cases value with
    | nil =>
      rw [List.getLast?_concat] at hc
      obtain rfl := Option.some.inj hc
      decide
    | cons d value =>
      rw [List.getLast?_append_of_ne_nil _ (List.cons_ne_nil _ _), List.getLast?_cons_cons] at hc
      exact hvalue.last c hc

/-- A printed attribute is read as what it was. -/
theorem ofText_attribute (hindent : IsIndent indent) (hkey : key ∈ attributeKeys)
    (hvalue : value.Trimmed) : ofText (indent ++ key ++ "=" ++ value) = .attribute key value := by
  obtain ⟨hstripped, hfiller, hequals, -⟩ := plain_attributeKeys key hkey
  have hstrip : (indent ++ key ++ "=" ++ value).strip = key ++ ('=' : CodePoint) :: value := by
    rw [List.append_assoc, List.append_assoc, Text.strip_blank_append hindent.isBlank]
    exact Text.strip_of_trimmed (trimmed_attribute (Text.trimmed_of_strip_eq hstripped) hvalue)
  have hline : ¬ IsFiller (indent ++ key ++ "=" ++ value) := by
    unfold IsFiller at hfiller ⊢
    rw [hstripped] at hfiller
    rw [hstrip]
    cases key with
    | nil => exact absurd (.inl rfl) hfiller
    | cons c key => simpa using hfiller
  rw [ofText_of_cutFirst hline (by rw [hstrip, cutFirst_append hequals]), hstripped,
    Text.strip_of_trimmed hvalue]

/-- The attributes are read one after the other, whatever is printed between them. -/
theorem ofLines_of_gives (h : Gives s body) (hs : ∀ a ∈ s, IsPlainAttribute a) {current : Stanza}
    (hd : ((current ++ s).map Prod.fst).Nodup) (rest : List ListLine) :
    ofLines (some current) (body.map ofText ++ rest) = ofLines (some (current ++ s)) rest := by
  induction h generalizing current with
  | nil => rw [List.append_nil, List.map_nil, List.nil_append]
  | @entry indent key value s ls hindent gives ih =>
    rw [List.forall_mem_cons] at hs
    obtain ⟨⟨hkey, hvalue, -⟩, hs⟩ := hs
    -- the key is new, so it is put behind those before it
    have hnew : key ∉ current.map Prod.fst := by
      intro hmem
      rw [List.map_append, List.nodup_append] at hd
      exact hd.2.2 key hmem key (by simp) rfl
    rw [List.map_cons, List.cons_append, ofText_attribute hindent hkey hvalue,
      ofLines, Option.map_some, Json.putMember_of_notMem hnew, ih hs (by simpa using hd)]
    simp
  | filler hfiller hline gives ih =>
    rw [List.map_cons, List.cons_append, ofText_of_isFiller hfiller, ofLines]
    exact ih hs hd

/-- The order of the attributes does not matter. -/
theorem ofStanza_of_perm (h : s.Perm q.attributes) : ofStanza s = q := by
  have hlookup : ∀ key, s.lookup key = q.attributes.lookup key :=
    Json.lookup_of_perm (nodup_of_perm h) h
  simp only [ofStanza, hlookup]
  rfl

/-! ## Headers -/

theorem ofText_managerHeader (h : IsIndent indent) :
    ofText (indent ++ managerHeader) = .header managerHeader := by
  have hstrip : (indent ++ managerHeader).strip = managerHeader :=
    Text.strip_blank_append h.isBlank _
  have hheader : IsHeader (indent ++ managerHeader) := by
    unfold IsHeader IsFiller
    rw [hstrip]
    decide
  rw [ofText_of_isHeader hheader, hstrip]

/-- Outside the stanzas of queue managers nothing is read up to the next header. -/
theorem ofLines_none (h : ∀ line ∈ body, ¬ IsHeader line) (rest : List ListLine) :
    ofLines none (body.map ofText ++ rest) = ofLines none rest := by
  induction body with
  | nil => rfl
  | cons line body ih =>
    rw [List.forall_mem_cons] at h
    rw [List.map_cons, List.cons_append]
    cases hline : ofText line with
    | header name => exact absurd (isHeader_of_ofText hline) h.1
    | «attribute» key value => exact ih h.2
    | other => exact ih h.2

/-! ## Lists -/

theorem Printed.opens (h : Printed qs ls) : Opens (ls.map ofText) := by
  induction h with
  | nil => exact .nil
  | filler hfiller hline rest ih =>
    rw [List.map_cons, ofText_of_isFiller hfiller]
    exact .other ih
  | other header body hheader kind plain single rest ih =>
    rw [List.map_cons, ofText_of_isHeader hheader]
    exact .header
  | manager indent hindent order gives rest ih =>
    rw [List.map_cons, ofText_managerHeader hindent]
    exact .header

theorem Gives.isLine (h : Gives s body) (hs : ∀ a ∈ s, IsPlainAttribute a) :
    ∀ line ∈ body, Text.IsLine line := by
  induction h with
  | nil => exact List.forall_mem_nil _
  | @entry indent key value s ls hindent gives ih =>
    rw [List.forall_mem_cons] at hs ⊢
    refine ⟨?_, ih hs.2⟩
    have hequals : Text.IsLine "=" := by decide
    exact ((hindent.isLine.append (plain_attributeKeys key hs.1.1).2.2.2).append hequals).append
      hs.1.2.2
  | filler hfiller hline gives ih => exact List.forall_mem_cons.2 ⟨hline, ih hs⟩

theorem Printed.isLine (h : Printed qs ls) (hq : ∀ q ∈ qs, q.IsPlain) :
    ∀ line ∈ ls, Text.IsLine line := by
  induction h with
  | nil => exact List.forall_mem_nil _
  | filler hfiller hline rest ih => exact List.forall_mem_cons.2 ⟨hline, ih hq⟩
  | other header body hheader kind plain single rest ih =>
    rw [← List.cons_append]
    exact List.forall_mem_append.2 ⟨single, ih hq⟩
  | manager indent hindent order gives rest ih =>
    rw [List.forall_mem_cons] at hq
    have hheader : Text.IsLine managerHeader := by decide
    refine List.forall_mem_cons.2 ⟨hindent.isLine.append hheader,
      List.forall_mem_append.2 ⟨?_, ih hq.2⟩⟩
    exact gives.isLine (isPlainAttribute_of_perm order hq.1)

/-- The stanzas of queue managers are read in their order, and the others are not read. -/
theorem Printed.ofLines (h : Printed qs ls) (hq : ∀ q ∈ qs, q.IsPlain) :
    (Stanza.ofLines none (ls.map ofText)).map ofStanza = qs := by
  induction h with
  | nil => rfl
  | filler hfiller hline rest ih =>
    rw [List.map_cons, ofText_of_isFiller hfiller]
    exact ih hq
  | other header body hheader kind plain single rest ih =>
    rw [List.map_cons, List.map_append, ofText_of_isHeader hheader, Stanza.ofLines, if_neg kind,
      ofLines_none plain]
    exact ih hq
  | @manager indent body s q qs ls hindent order gives rest ih =>
    rw [List.forall_mem_cons] at hq
    have hs : ∀ a ∈ s, IsPlainAttribute a := isPlainAttribute_of_perm order hq.1
    have hd : (([] ++ s).map Prod.fst).Nodup := nodup_of_perm order
    have hclosed : closed (some s) = [s] := by
      cases s with
      | nil => exact absurd order.length_eq (by simp [attributes])
      | cons a s => rfl
    -- the lines behind the stanza are a list of their own, which closes it
    calc (Stanza.ofLines none (((indent ++ managerHeader) :: (body ++ ls)).map ofText)).map ofStanza
        = (Stanza.ofLines (some []) (body.map ofText ++ ls.map ofText)).map ofStanza := by
          rw [List.map_cons, List.map_append, ofText_managerHeader hindent,
            Stanza.ofLines, if_pos rfl]
          rfl
      _ = (Stanza.ofLines (some s) (ls.map ofText)).map ofStanza := by
          rw [ofLines_of_gives gives hs hd, List.nil_append]
      _ = ([s] ++ Stanza.ofLines none (ls.map ofText)).map ofStanza := by
          rw [ofLines_of_opens rest.opens, hclosed]
      _ = q :: qs := by rw [List.singleton_append, List.map_cons, ofStanza_of_perm order, ih hq.2]

theorem exists_gives (s : Stanza) : ∃ body, Gives s body := by
  induction s with
  | nil => exact ⟨[], .nil⟩
  | cons a s ih =>
    obtain ⟨body, h⟩ := ih
    exact ⟨_, .entry [] (List.forall_mem_nil _) h⟩

theorem exists_printed (qs : List QueueManager) : ∃ ls, Printed qs ls := by
  induction qs with
  | nil => exact ⟨[], .nil⟩
  | cons q qs ih =>
    obtain ⟨ls, h⟩ := ih
    obtain ⟨body, hbody⟩ := exists_gives q.attributes
    exact ⟨_, .manager [] (List.forall_mem_nil _) (.refl _) hbody h⟩

/-- Some queue managers can be printed, and whatever prints them is read as these, in a text that
ends in a line feed and in any other text of the same lines. -/
theorem parse_printed (hq : ∀ q ∈ qs, q.IsPlain) :
    (∃ ls, Printed qs ls) ∧
    ∀ ls, Printed qs ls →
      parse (ls.flatMap (· ++ "\n")) = qs ∧ ∀ t : Text, t.lines = ls → parse t = qs := by
  refine ⟨exists_printed qs, fun ls h => ?_⟩
  have hparse : ∀ t : Text, t.lines = ls → parse t = qs := by
    intro t ht
    rw [parse, ht, h.ofLines hq]
  exact ⟨hparse _ (Text.lines_terminated (h.isLine hq)), hparse⟩

/-- A manager with signs of the list in its fields. -/
def signs : QueueManager := ⟨"#=;", "/var:mqm", "=:", ""⟩

/-- Its stanza, with lines that seem to say something else. -/
def signsBody : List Text :=
  [" \tDirectory==:", "Prefix=/var:mqm", "; Name=A", "", "   Name=#=;", "# Other:", "DataPath="]

/-- A list with that stanza between two others. -/
def signsList : List Text :=
  List.flatten [["# QueueManager:", "Defaults:", "Name=B", "Name;", "\tQueueManager:"], signsBody,
    [" QueueManager::", "Name=C"]]

theorem parse_signsList : parse (signsList.flatMap (· ++ "\n")) = [signs] := by
  have hgives : Gives [("Directory", "=:"), ("Prefix", "/var:mqm"), ("Name", "#=;"),
      ("DataPath", "")] signsBody :=
    .entry " \t" (by decide) <| .entry "" (by decide) <| .filler (by decide) (by decide) <|
    .filler (by decide) (by decide) <| .entry "   " (by decide) <|
    .filler (by decide) (by decide) <|
    .entry "" (by decide) .nil
  have hend : Printed [] [" QueueManager::", "Name=C"] :=
    .other " QueueManager::" ["Name=C"] (by decide) (by decide) (by decide) (by decide) .nil
  have hprinted : Printed [signs] signsList :=
    .filler (by decide) (by decide) <|
    .other "Defaults:" ["Name=B", "Name;"] (by decide) (by decide) (by decide) (by decide) <|
    @Printed.manager "\t" signsBody _ _ _ _ (by decide) (by decide) hgives hend
  exact ((parse_printed (by decide)).2 signsList hprinted).1

end QueueManager

end LogRelay
