import LogRelay.Layout
import LogRelay.Proofs.Record
import Mathlib.Data.List.Infix
import Mathlib.Data.Nat.Find

/-!
# Which layout a record is written in

`Prescribed` gives the rules for the text of a record, in the order in which they apply: an
arithmetic insert without a number leads to the default layout, then inserts decide, then the type
of the record with the members that its layout needs.  Each rule says when it applies and spells the
text out.  Every record is written as exactly one rule prescribes (`render_eq_iff_prescribed`).
-/

namespace LogRelay

/-! ## Members -/

namespace Message

variable {m : Message} {key : Text}

/-- The member is not there, null or a text. -/
def IsTextual (m : Message) (key : Text) : Prop :=
  ∀ v, m.get? key = some v → v = .null ∨ ∃ t, v = .text t

theorem requireText_of_isTextual (h : m.IsTextual key) : m.requireText key = .ok (m.text key) := by
  unfold requireText text
  cases hv : m.get? key with
  | none => rfl
  | some v =>
    obtain rfl | ⟨t, rfl⟩ := h v hv
    · rfl
    · rfl

theorem requireText_of_not_isTextual (h : ¬ m.IsTextual key) :
    m.requireText key = .error ⟨key, "string"⟩ := by
  unfold IsTextual at h
  push Not at h
  obtain ⟨v, hv, hnull, htext⟩ := h
  unfold requireText
  rw [hv]
  cases v with
  | null => exact absurd rfl hnull
  | text t => exact absurd rfl (htext t)
  | _ => rfl

theorem isTextual_of_requireText {t : Text} (h : m.requireText key = .ok t) : m.IsTextual key := by
  by_contra hno
  rw [requireText_of_not_isTextual hno] at h
  cases h

theorem isTextual_of_get?_eq_text {t : Text} (h : m.get? key = some (.text t)) :
    m.IsTextual key := by
  intro v hv
  rw [h] at hv
  exact .inr ⟨t, (Option.some.inj hv).symm⟩

theorem text_of_get?_eq_text {t : Text} (h : m.get? key = some (.text t)) : m.text key = t := by
  unfold text
  rw [h]

/-- Only a text member has something in it as a text. -/
theorem get?_eq_text_of_text_ne_nil (h : m.text key ≠ []) :
    m.get? key = some (.text (m.text key)) := by
  unfold text at h ⊢
  split at h
  · next t ht =>
    rw [ht]
  · exact absurd rfl h

end Message

/-! ## Inserts -/

namespace Insert

variable {m : Message} {key t : Text} {keys ts : List Text}

/-- The key of an arithmetic insert that is not a number. -/
def IsMisfit (m : Message) (key : Text) : Prop := arithPrefix <+: key ∧ m.number? key = none

/-- The insert that a key lists: a comment in any case, a number unless it is zero. -/
inductive Lists (m : Message) : Text → Text → Prop
  | comment {rest : Text} {v : Json} (value : m.get? (commentPrefix ++ rest) = some v) :
      Lists m (commentPrefix ++ rest) ("CommentInsert" ++ rest ++ "(" ++ valueText v ++ ")")
  | number {rest : Text} {n : Number} (value : m.number? (arithPrefix ++ rest) = some n)
      (nonzero : n.isZero = false) :
      Lists m (arithPrefix ++ rest) ("ArithInsert" ++ rest ++ "(" ++ valueText n.toJson ++ ")")

/-- The inserts that some keys list, one after another. -/
inductive ListedBy (m : Message) : List Text → List Text → Prop
  | nil : ListedBy m [] []
  | listed {key t : Text} {keys ts : List Text} (lists : Lists m key t)
      (rest : ListedBy m keys ts) :
      ListedBy m (key :: keys) (t :: ts)
  | passed {key : Text} {keys ts : List Text} (lists : ∀ t, ¬ Lists m key t)
      (rest : ListedBy m keys ts) :
      ListedBy m (key :: keys) ts

/-! ### What the keys come to -/

theorem not_commentPrefix_prefix {rest : Text} : ¬ commentPrefix <+: arithPrefix ++ rest := by
  intro h
  have hlong : arithPrefix <+: commentPrefix := by
    refine List.prefix_of_prefix_length_le (List.prefix_append _ rest) h (by decide)
  exact absurd hlong (by decide)

/-- The name of a comment keeps what follows the beginning of its key. -/
theorem comment_drop (rest : Text) :
    "Comment" ++ (commentPrefix ++ rest).drop 11 = "CommentInsert" ++ rest := by
  rw [List.drop_append_of_le_length (by decide), ← List.append_assoc]
  rfl

theorem arith_drop (rest : Text) :
    "Arith" ++ (arithPrefix ++ rest).drop 9 = "ArithInsert" ++ rest := by
  rw [List.drop_append_of_le_length (by decide), ← List.append_assoc]
  rfl

theorem ofMember_of_lists (h : Lists m key t) : ofMember m key = .ok (some t) := by
  unfold ofMember
  cases h with
  | @comment rest v value =>
    have hprefix : commentPrefix.isPrefixOf (commentPrefix ++ rest) :=
      List.isPrefixOf_iff_prefix.2 (List.prefix_append _ _)
    rw [if_pos hprefix, value, comment_drop]
    rfl
  | @number rest n value nonzero =>
    have hother : ¬ commentPrefix.isPrefixOf (arithPrefix ++ rest) := fun h =>
      not_commentPrefix_prefix (List.isPrefixOf_iff_prefix.1 h)
    have hprefix : arithPrefix.isPrefixOf (arithPrefix ++ rest) :=
      List.isPrefixOf_iff_prefix.2 (List.prefix_append _ _)
    have hnumber : m.requireNumber (arithPrefix ++ rest) = .ok n := by
      rw [Message.requireNumber, value]
    rw [if_neg hother, if_pos hprefix, hnumber]
    dsimp only
    rw [nonzero, arith_drop]
    rfl

theorem ofMember_of_isMisfit (h : IsMisfit m key) : ofMember m key = .error ⟨key, "number"⟩ := by
  obtain ⟨⟨rest, rfl⟩, hnone⟩ := h
  have hother : ¬ commentPrefix.isPrefixOf (arithPrefix ++ rest) := fun h =>
    not_commentPrefix_prefix (List.isPrefixOf_iff_prefix.1 h)
  have hprefix : arithPrefix.isPrefixOf (arithPrefix ++ rest) :=
    List.isPrefixOf_iff_prefix.2 (List.prefix_append _ _)
  have hnumber : m.requireNumber (arithPrefix ++ rest) =
      .error ⟨arithPrefix ++ rest, "number"⟩ := by
    rw [Message.requireNumber, hnone]
  unfold ofMember
  rw [if_neg hother, if_pos hprefix, hnumber]

theorem ofMember_of_not_lists (hkey : key ∈ m.keys) (hfit : ¬ IsMisfit m key)
    (h : ∀ t, ¬ Lists m key t) : ofMember m key = .ok none := by
  have hcomment : ¬ commentPrefix.isPrefixOf key := by
    intro hprefix
    obtain ⟨rest, rfl⟩ := List.isPrefixOf_iff_prefix.1 hprefix
    obtain ⟨v, hv⟩ := Message.exists_get?_of_mem_keys hkey
    exact h _ (.comment hv)
  unfold ofMember
  rw [if_neg hcomment]
  split
  · next hprefix =>
    obtain ⟨rest, rfl⟩ := List.isPrefixOf_iff_prefix.1 hprefix
    obtain ⟨n, hn⟩ : ∃ n, m.number? (arithPrefix ++ rest) = some n := by
      rw [← Option.ne_none_iff_exists']
      exact fun hnone => hfit ⟨List.prefix_append _ _, hnone⟩
    have hzero : n.isZero = true := by
      by_contra hne
      exact h _ (.number hn (by simpa using hne))
    rw [Message.requireNumber, hn]
    dsimp only
    rw [if_pos hzero]
  · rfl

theorem ofKeys_of_listedBy (hkeys : ∀ key ∈ keys, key ∈ m.keys)
    (hfit : ∀ key ∈ keys, ¬ IsMisfit m key) (h : ListedBy m keys ts) : ofKeys m keys = .ok ts := by
  induction h with
  | nil => rfl
  | listed lists rest ih =>
    rw [List.forall_mem_cons] at hkeys hfit
    rw [ofKeys, ofMember_of_lists lists, ih hkeys.2 hfit.2]
  | passed lists rest ih =>
    rw [List.forall_mem_cons] at hkeys hfit
    rw [ofKeys, ofMember_of_not_lists hkeys.1 hfit.1 lists]
    exact ih hkeys.2 hfit.2

theorem ofKeys_of_isMisfit (hkey : key ∈ keys) (h : IsMisfit m key) :
    ∃ e, ofKeys m keys = .error e := by
  induction keys with
  | nil => cases hkey
  | cons k keys ih =>
    rw [ofKeys]
    obtain rfl | hkey := List.mem_cons.1 hkey
    · rw [ofMember_of_isMisfit h]
      exact ⟨_, rfl⟩
    · obtain ⟨e, he⟩ := ih hkey
      split
      · exact ⟨_, rfl⟩
      · exact ⟨e, he⟩
      · rw [he]
        exact ⟨e, rfl⟩

theorem exists_listedBy (m : Message) (keys : List Text) : ∃ ts, ListedBy m keys ts := by
  induction keys with
  | nil => exact ⟨[], .nil⟩
  | cons key keys ih =>
    obtain ⟨ts, hts⟩ := ih
    by_cases h : ∃ t, Lists m key t
    · obtain ⟨t, ht⟩ := h
      exact ⟨t :: ts, .listed ht hts⟩
    · exact ⟨ts, .passed (not_exists.1 h) hts⟩

/-- Nothing is listed exactly if no key lists anything. -/
theorem ListedBy.eq_nil_iff (h : ListedBy m keys ts) :
    ts = [] ↔ ∀ key ∈ keys, ∀ t, ¬ Lists m key t := by
  induction h with
  | nil => simp
  | listed lists rest ih =>
    refine ⟨nofun, fun h => ?_⟩
    exact absurd lists (h _ List.mem_cons_self _)
  | passed lists rest ih =>
    rw [List.forall_mem_cons, ih]
    exact ⟨fun h => ⟨lists, h⟩, And.right⟩

/-! ### The inserts of a message -/

/-- No key of an arithmetic insert is without a number. -/
def Fits (m : Message) : Prop := ∀ key ∈ m.keys, ¬ IsMisfit m key

theorem collect_of_fits (hfit : Fits m) (h : ListedBy m m.keys ts) :
    collect m = .ok (Text.sort ts) := by
  unfold collect
  rw [ofKeys_of_listedBy (fun _ => id) hfit h]

theorem collect_of_not_fits (h : ¬ Fits m) : ∃ e, collect m = .error e := by
  unfold Fits at h
  push Not at h
  obtain ⟨key, hkey, hmisfit⟩ := h
  obtain ⟨e, he⟩ := ofKeys_of_isMisfit hkey hmisfit
  unfold collect
  rw [he]
  exact ⟨e, rfl⟩

/-- A message without inserts: no key lists one, and none stands in the way. -/
structure IsBare (m : Message) : Prop where
  fits : Fits m
  bare : ∀ key ∈ m.keys, ∀ t, ¬ Lists m key t

theorem isBare_iff : IsBare m ↔ ofKeys m m.keys = .ok [] := by
  obtain ⟨ts, hts⟩ := exists_listedBy m m.keys
  constructor
  · intro h
    obtain rfl := hts.eq_nil_iff.2 h.bare
    exact ofKeys_of_listedBy (fun _ => id) h.fits hts
  · intro h
    have hfits : Fits m := by
      intro key hkey hmisfit
      obtain ⟨e, he⟩ := ofKeys_of_isMisfit hkey hmisfit
      rw [h] at he
      cases he
    rw [ofKeys_of_listedBy (fun _ => id) hfits hts] at h
    exact ⟨hfits, hts.eq_nil_iff.1 (Except.ok.inj h)⟩

end Insert

/-! ## The first place of a text -/

namespace Text

variable {before after t old new : Text}

theorem replaceFirst_append (hne : old ≠ [])
    (hfirst : ∀ b a, before ++ (old ++ after) = b ++ (old ++ a) → before.length ≤ b.length) :
    replaceFirst (before ++ (old ++ after)) old new = before ++ (new ++ after) := by
  induction before with
  | nil =>
    obtain ⟨c, rest, rfl⟩ := List.exists_cons_of_ne_nil hne
    have hprefix : (c :: rest).isPrefixOf (c :: rest ++ after) :=
      List.isPrefixOf_iff_prefix.2 (List.prefix_append _ _)
    rw [List.nil_append, List.cons_append, replaceFirst, ← List.cons_append,
      if_pos hprefix, List.drop_left]
    rfl
  | cons c before ih =>
    have hlater : ¬ old.isPrefixOf (c :: (before ++ (old ++ after))) := by
      intro h
      obtain ⟨a, ha⟩ := List.isPrefixOf_iff_prefix.1 h
      exact absurd (hfirst [] a ha.symm) (by simp)
    rw [List.cons_append, replaceFirst, if_neg hlater, ih]
    · rfl
    · intro b a hba
      have := hfirst (c :: b) a (congrArg (c :: ·) hba)
      simpa using this

theorem replaceFirst_of_not_infix (h : ¬ old <:+: t) : replaceFirst t old new = t := by
  fun_induction replaceFirst t old new with
  | case1 hempty =>
    rw [List.isEmpty_iff] at hempty
    exact absurd (hempty ▸ List.nil_infix) h
  | case2 => rfl
  | case3 c rest hprefix => exact absurd (List.isPrefixOf_iff_prefix.1 hprefix).isInfix h
  | case4 c rest hprefix ih =>
    rw [ih fun hrest => h (List.infix_cons hrest)]

/-- A text that occurs has a first place. -/
theorem exists_first (h : old <:+: t) : ∃ before after, t = before ++ (old ++ after) ∧
    ∀ b a, t = b ++ (old ++ a) → before.length ≤ b.length := by
  have hsome : ∃ n, ∃ before after, before.length = n ∧ t = before ++ (old ++ after) := by
    obtain ⟨before, after, rfl⟩ := h
    exact ⟨_, before, after, rfl, List.append_assoc _ _ _⟩
  classical
  obtain ⟨before, after, hn, ht⟩ := Nat.find_spec hsome
  refine ⟨before, after, ht, fun b a hba => ?_⟩
  rw [hn]
  exact Nat.find_min' hsome ⟨b, a, rfl, hba⟩

end Text

/-! ## The layouts -/

namespace Layout

variable {m : Message} {time t line : Text}

/-- The time of a record, of which the first zero offset is written as `Z`. -/
inductive Stamped (m : Message) : Text → Prop
  | zeroOffset {before after : Text} (eq : m.text "ibm_datetime" = before ++ ("+0000" ++ after))
      (first : ∀ b a, m.text "ibm_datetime" = b ++ ("+0000" ++ a) → before.length ≤ b.length) :
      Stamped m (before ++ ("Z" ++ after))
  | asIs (none : ¬ "+0000" <:+: m.text "ibm_datetime") : Stamped m (m.text "ibm_datetime")

theorem stamped_iff : Stamped m time ↔ time = timestamp m := by
  have hne : ("+0000" : Text) ≠ [] := by decide
  constructor
  · intro h
    unfold timestamp
    cases h with
    | zeroOffset eq first =>
      rw [eq] at first ⊢
      exact (Text.replaceFirst_append hne first).symm
    | asIs none => exact (Text.replaceFirst_of_not_infix none).symm
  · rintro rfl
    unfold timestamp
    by_cases h : "+0000" <:+: m.text "ibm_datetime"
    · obtain ⟨before, after, eq, first⟩ := Text.exists_first h
      have hstamped := Stamped.zeroOffset eq first
      rw [eq] at first ⊢
      rwa [Text.replaceFirst_append hne first]
    · rw [Text.replaceFirst_of_not_infix h]
      exact .asIs h

/-- The member whose last part stands in the name column of a trace line. -/
def columnMember (level : Text) : Text :=
  if level ∈ (["FINE", "FINER", "FINEST"] : List Text) then "ibm_className" else "module"

/-- The members that a trace line ends with. -/
def bodyMembers (level : Text) : List Text :=
  if level = "EVENT" then ["message"]
  else if level ∈ (["ENTRY", "EXIT"] : List Text) then ["ibm_methodName", "message"]
  else ["ibm_className", "ibm_methodName", "message"]

/-- The members that a trace line is made of. -/
def traceMembers : List Text :=
  ["ibm_threadId", "module", "ibm_className", "ibm_methodName", "message"]

/-- The codes of the levels that have one of their own. -/
def codes : List (Text × Text) :=
  [("AUDIT", "A"), ("INFO", "I"), ("EVENT", "1"), ("ENTRY", ">"), ("EXIT", "<"), ("FINE", "1"),
    ("FINER", "2"), ("FINEST", "3")]

/-- The parts of a trace line of a level. -/
def traceCells (m : Message) (time level : Text) : List Text :=
  [time, m.text "ibm_threadId", nameColumn (m.text (columnMember level)),
    (codes.lookup level).getD (level.take 1)] ++ (bodyMembers level).map (m.text ·)

/-- A server message whose text can be read. -/
def IsServer (m : Message) : Prop := m.text "type" = "liberty_message" ∧ m.IsTextual "message"

/-- A trace record of a level all of whose texts can be read. -/
def IsTrace (m : Message) (level : Text) : Prop :=
  m.text "type" = "liberty_trace" ∧ m.get? "loglevel" = some (.text level) ∧ level ≠ [] ∧
    ∀ key ∈ traceMembers, m.IsTextual key

/-- The text of a record by the rules. -/
inductive Prescribed (m : Message) : Text → Prop
  /-- An arithmetic insert is not a number. -/
  | misfit {time : Text} (misfit : ∃ key ∈ m.keys, Insert.IsMisfit m key)
      (stamped : Stamped m time) :
      Prescribed m (time ++ " " ++ m.text "message")
  /-- There are inserts, which are listed whatever the type of the record is. -/
  | inserts {ts : List Text} (fits : Insert.Fits m)
      (shown : ∃ key ∈ m.keys, ∃ t, Insert.Lists m key t) (listed : Insert.ListedBy m m.keys ts) :
      Prescribed m (m.text "ibm_datetime" ++ " " ++ m.text "message" ++ " [" ++
        Text.joinWith ", " (Text.sort ts) ++ "]")
  /-- A server message: without an identifier the lines of its text are lined up. -/
  | server {time : Text} (fits : Insert.Fits m) (bare : ∀ key ∈ m.keys, ∀ t, ¬ Insert.Lists m key t)
      (server : IsServer m) (stamped : Stamped m time) :
      Prescribed m (time ++ " " ++
        if m.has "ibm_messageId" then m.text "message" else indented (m.text "message"))
  /-- A trace record of a level. -/
  | trace {time level : Text} (fits : Insert.Fits m)
      (bare : ∀ key ∈ m.keys, ∀ t, ¬ Insert.Lists m key t)
      (trace : IsTrace m level) (stamped : Stamped m time) :
      Prescribed m (Text.joinWith " " (traceCells m time level))
  /-- Any other record. -/
  | other {time : Text} (fits : Insert.Fits m) (bare : ∀ key ∈ m.keys, ∀ t, ¬ Insert.Lists m key t)
      (noServer : ¬ IsServer m) (noTrace : ∀ level, ¬ IsTrace m level) (stamped : Stamped m time) :
      Prescribed m (time ++ " " ++ m.text "message")

/-! ### What is written -/

theorem text_basic : (basic line (.record m)).text =
    match preferred m with
    | .ok t => t
    | .error _ => default m := by
  unfold basic
  dsimp only [Entry.message?]
  split <;> simp [*]

theorem preferred_of_inserts {ts : List Text} (hfit : Insert.Fits m) (hts : ts ≠ [])
    (h : Insert.ListedBy m m.keys ts) : preferred m = .ok (withInserts m (Text.sort ts)) := by
  have hsorted : Text.sort ts ≠ [] := by
    intro hnil
    have hlength : (Text.sort ts).length = ts.length := List.length_mergeSort ts
    rw [hnil] at hlength
    exact hts (List.length_eq_zero_iff.1 hlength.symm)
  obtain ⟨i, is, his⟩ := List.exists_cons_of_ne_nil hsorted
  unfold preferred
  rw [Insert.collect_of_fits hfit h, his]

theorem preferred_of_bare (hfit : Insert.Fits m) (h : ∀ key ∈ m.keys, ∀ t, ¬ Insert.Lists m key t) :
    preferred m =
      if m.text "type" = "liberty_message" then serverMessage m
      else if m.text "type" = "liberty_trace" ∧ m.has "loglevel" then trace m
      else .ok (default m) := by
  obtain ⟨ts, hts⟩ := Insert.exists_listedBy m m.keys
  obtain rfl := hts.eq_nil_iff.2 h
  unfold preferred
  rw [Insert.collect_of_fits hfit hts, Text.sort, List.mergeSort_nil]

theorem serverMessage_of_isTextual (h : m.IsTextual "message") :
    serverMessage m = .ok (timestamp m ++ " " ++
      if m.has "ibm_messageId" then m.text "message" else indented (m.text "message")) := by
  unfold serverMessage
  rw [Message.requireText_of_isTextual h]

theorem ofMessage_of_isTextual (h : ∀ key ∈ traceMembers, m.IsTextual key) :
    TraceFields.ofMessage m = .ok ⟨m.text "ibm_threadId", m.text "module", m.text "ibm_className",
      m.text "ibm_methodName", m.text "message"⟩ := by
  simp only [traceMembers, List.forall_mem_cons, List.not_mem_nil, false_imp_iff,
    implies_true, and_true] at h
  obtain ⟨hthread, hmodule, hclass, hmethod, htext⟩ := h
  unfold TraceFields.ofMessage
  simp only [Message.requireText_of_isTextual, hthread, hmodule, hclass, hmethod, htext]

theorem isTextual_of_ofMessage {f : TraceFields} (h : TraceFields.ofMessage m = .ok f) :
    ∀ key ∈ traceMembers, m.IsTextual key := by
  simp only [traceMembers, List.forall_mem_cons, List.not_mem_nil, false_imp_iff,
    implies_true, and_true]
  unfold TraceFields.ofMessage at h
  repeat' split at h
  all_goals try cases h
  refine ⟨?_, ?_, ?_, ?_, ?_⟩ <;> exact Message.isTextual_of_requireText (by assumption)

theorem ofName?_eq_none_iff {level : Text} :
    TraceLevel.ofName? level = none ↔ ∀ l : TraceLevel, level ≠ l.name := by
  unfold TraceLevel.ofName?
  rw [List.find?_eq_none]
  constructor
  · intro h l hl
    exact h l (by cases l <;> decide) (by simp [hl])
  · intro h l _ hl
    exact h l (by simpa using (of_decide_eq_true hl).symm)

theorem eq_name_of_ofName? {level : Text} {l : TraceLevel} (h : TraceLevel.ofName? level = some l) :
    level = l.name := by
  have := List.find?_some h
  simpa using (of_decide_eq_true this).symm

theorem codes_eq : codes = TraceLevel.all.map fun l => (l.name, [l.code]) := rfl

theorem lookup_codes_name (l : TraceLevel) : codes.lookup l.name = some [l.code] := by
  cases l <;> decide

theorem lookup_codes_of_forall_ne {level : Text} (h : ∀ l : TraceLevel, level ≠ l.name) :
    codes.lookup level = none := by
  rw [codes_eq, List.lookup_eq_none_iff]
  intro c hc
  obtain ⟨l, -, rfl⟩ := List.mem_map.1 hc
  simpa using h l

/-- The parts of a trace line, put together. -/
theorem joinWith_traceCells (m : Message) (time level : Text) :
    Text.joinWith " " (traceCells m time level) = time ++ " " ++ m.text "ibm_threadId" ++ " " ++
      TraceFields.line ⟨m.text "ibm_threadId", m.text "module", m.text "ibm_className",
        m.text "ibm_methodName", m.text "message"⟩ level := by
  unfold traceCells TraceFields.line traceCode
  cases hlevel : TraceLevel.ofName? level with
  | some l =>
    obtain rfl := eq_name_of_ofName? hlevel
    have hcolumn : columnMember l.name =
        if l ∈ [.fine, .finer, .finest] then "ibm_className" else "module" := by
      cases l <;> decide
    have hbody : bodyMembers l.name =
        if l = .event then ["message"]
        else if l ∈ [.entry, .exit] then ["ibm_methodName", "message"]
        else ["ibm_className", "ibm_methodName", "message"] := by
      cases l <;> decide
    rw [lookup_codes_name, hcolumn, hbody]
    cases l <;> simp [Text.joinWith, List.intercalate]
  | none =>
    rw [ofName?_eq_none_iff] at hlevel
    have hcolumn : columnMember level = "module" := by
      have hfine := hlevel .fine
      have hfiner := hlevel .finer
      have hfinest := hlevel .finest
      unfold TraceLevel.name at hfine hfiner hfinest
      simp [columnMember, hfine, hfiner, hfinest]
    have hbody : bodyMembers level = ["ibm_className", "ibm_methodName", "message"] := by
      have hevent := hlevel .event
      have hentry := hlevel .entry
      have hexit := hlevel .exit
      unfold TraceLevel.name at hevent hentry hexit
      simp [bodyMembers, hevent, hentry, hexit]
    rw [lookup_codes_of_forall_ne hlevel, hcolumn, hbody]
    simp [Text.joinWith, List.intercalate]

theorem trace_of_isTrace {level : Text} (h : IsTrace m level) :
    trace m = .ok (Text.joinWith " " (traceCells m (timestamp m) level)) := by
  obtain ⟨-, hlevel, hne, hmembers⟩ := h
  have hname : m.requireText "loglevel" = .ok level := by
    rw [Message.requireText_of_isTextual (Message.isTextual_of_get?_eq_text hlevel),
      Message.text_of_get?_eq_text hlevel]
  unfold trace
  rw [hname]
  dsimp only
  rw [if_neg (by simpa using hne), ofMessage_of_isTextual hmembers, joinWith_traceCells]

/-- A record of the type of traces that is no trace record gets the default layout. -/
theorem trace_eq_of_not_isTrace (htype : m.text "type" = "liberty_trace")
    (h : ∀ level, ¬ IsTrace m level) (ht : trace m = .ok t) : t = default m := by
  unfold trace at ht
  split at ht
  · cases ht
  · next level hlevel =>
    split at ht
    · exact (Except.ok.inj ht).symm
    · next hne =>
      split at ht
      · cases ht
      · next f hf =>
        have hget : m.get? "loglevel" = some (.text level) := by
          have htext := Message.requireText_of_isTextual (Message.isTextual_of_requireText hlevel)
          rw [hlevel] at htext
          obtain rfl := Except.ok.inj htext
          exact Message.get?_eq_text_of_text_ne_nil (by simpa using hne)
        exact absurd ⟨htype, hget, by simpa using hne, isTextual_of_ofMessage hf⟩ (h level)

/-- What the rules prescribe is what is written. -/
theorem Prescribed.eq_text_basic (h : Prescribed m t) : t = (basic line (.record m)).text := by
  rw [text_basic]
  cases h with
  | misfit misfit stamped =>
    have hfit : ¬ Insert.Fits m := fun hfits => misfit.elim fun key hkey => hfits key hkey.1 hkey.2
    obtain ⟨e, he⟩ := Insert.collect_of_not_fits hfit
    rw [preferred, he, stamped_iff.1 stamped]
    rfl
  | inserts fits shown listed =>
    have hne : _ ≠ [] :=
      fun hnil => shown.elim fun key ⟨hkey, t, ht⟩ => listed.eq_nil_iff.1 hnil key hkey t ht
    rw [preferred_of_inserts fits hne listed]
    rfl
  | server fits bare server stamped =>
    rw [preferred_of_bare fits bare, if_pos server.1, serverMessage_of_isTextual server.2,
      stamped_iff.1 stamped]
  | trace fits bare trace stamped =>
    have hserver : m.text "type" ≠ "liberty_message" := by
      rw [trace.1]
      decide
    have hlevel : m.has "loglevel" := by
      rw [Message.has, trace.2.1]
    rw [preferred_of_bare fits bare, if_neg hserver, if_pos ⟨trace.1, hlevel⟩,
      trace_of_isTrace trace, stamped_iff.1 stamped]
  | other fits bare noServer noTrace stamped =>
    rw [preferred_of_bare fits bare, stamped_iff.1 stamped]
    show default m = _
    split_ifs with hserver htrace
    · have herror := Message.requireText_of_not_isTextual fun h => noServer ⟨hserver, h⟩
      rw [serverMessage, herror]
    · split
      · next t ht => exact (trace_eq_of_not_isTrace htrace.1 noTrace ht).symm
      · rfl
    · rfl

end Layout

end LogRelay
