import LogRelay.Proofs.Inserts

/-!
# What the text of a record depends on

A layout looks at nine members and at the inserts, and at each of them by its key.  Two records that
agree on these, in whatever order their members stand and whatever else is in them, are written as
the same text (`render_text_congr`).  Only the member that is reported when the inserts are refused
is another.
-/

namespace LogRelay

/-! ## Shown members -/

namespace Layout

variable {m m' : Message}

/-- The members that layouts name. -/
def namedMembers : List Text :=
  ["ibm_datetime", "message", "type", "loglevel", "ibm_messageId", "ibm_threadId",
    "module", "ibm_className", "ibm_methodName"]

/-- The key of a member that can be shown. -/
def IsShown (key : Text) : Prop :=
  key ∈ namedMembers ∨ Insert.commentPrefix <+: key ∨ Insert.arithPrefix <+: key

/-- Two records have the same members that can be shown. -/
def Agree (m m' : Message) : Prop := ∀ key, IsShown key → m.get? key = m'.get? key

namespace Agree

/-! ### Members -/

section Named

variable (h : Agree m m') (key : Text) (hkey : key ∈ namedMembers)

include h hkey

theorem get?_eq : m.get? key = m'.get? key := h key (.inl hkey)

theorem has_eq : m.has key = m'.has key := by
  unfold Message.has
  rw [h.get?_eq key hkey]

theorem text_eq : m.text key = m'.text key := by
  unfold Message.text
  rw [h.get?_eq key hkey]

theorem requireText_eq : m.requireText key = m'.requireText key := by
  unfold Message.requireText
  rw [h.get?_eq key hkey]

end Named

/-! ### Inserts -/

section Inserts

variable (h : Agree m m') (hd : m.keys.Nodup) (hd' : m'.keys.Nodup)

include h hd hd'

/-- Members of a kind that can be shown are the same but for their order. -/
theorem filter_perm {f : Text × Json → Bool} (hf : ∀ p, f p → IsShown p.1) :
    (m.members.filter f).Perm (m'.members.filter f) := by
  have hnodup : (m.members.filter f).Nodup := hd.of_map.filter f
  have hnodup' : (m'.members.filter f).Nodup := hd'.of_map.filter f
  apply (List.perm_ext_iff_of_nodup hnodup hnodup').2
  rintro ⟨key, v⟩
  rw [List.mem_filter, List.mem_filter]
  apply and_congr_left
  intro hshown
  rw [← Message.get?_eq_some_iff hd, ← Message.get?_eq_some_iff hd', h key (hf _ hshown)]

theorem fits_iff : Insert.Fits m ↔ Insert.Fits m' := by
  have hperm : (m.members.filter Insert.isUnfit).Perm (m'.members.filter Insert.isUnfit) := by
    apply filter_perm h hd hd'
    exact fun p hunfit => .inr (.inr (Insert.isUnfit_iff.1 hunfit).1)
  rw [Insert.fits_iff hd, Insert.fits_iff hd', ← List.filter_eq_nil_iff, ← List.filter_eq_nil_iff]
  constructor
  · intro hnil
    rw [hnil] at hperm
    exact hperm.symm.eq_nil
  · intro hnil
    rw [hnil] at hperm
    exact hperm.eq_nil

theorem listed_perm : (Insert.comments m.members ++ Insert.numbers m.members).Perm
    (Insert.comments m'.members ++ Insert.numbers m'.members) := by
  apply List.Perm.append
  · apply (filter_perm h hd hd' _).map
    exact fun p hcomment => .inr (.inl (Insert.isComment_iff.1 hcomment))
  · apply (filter_perm h hd hd' _).map
    exact fun p hcounted => .inr (.inr (Insert.isCounted_iff.1 hcounted).1)

/-- The same inserts are listed, or both records have a misfit, but not the same one need be the
first. -/
theorem collect_cases : Insert.collect m = Insert.collect m' ∨
    (∃ e, Insert.collect m = .error e) ∧ ∃ e, Insert.collect m' = .error e := by
  by_cases hfits : Insert.Fits m
  · left
    have hfits' := (fits_iff h hd hd').1 hfits
    obtain ⟨ts, hts, hsorted, hperm⟩ := Insert.exists_collect hd hfits
    obtain ⟨ts', hts', hsorted', hperm'⟩ := Insert.exists_collect hd' hfits'
    -- both are ascending, so it is enough that they list the same
    have hsame : ts.Perm ts' := (hperm.trans (listed_perm h hd hd')).trans hperm'.symm
    rw [hts, hts', Text.eq_of_pairwise_of_perm hsorted hsorted' hsame]
  · right
    have hfits' := mt (fits_iff h hd hd').2 hfits
    exact ⟨Insert.collect_of_not_fits hfits, Insert.collect_of_not_fits hfits'⟩

end Inserts

/-! ### Layouts -/

section Layouts

variable (h : Agree m m')

include h

theorem timestamp_eq : timestamp m = timestamp m' := by
  unfold timestamp
  rw [h.text_eq "ibm_datetime" (by decide)]

theorem default_eq : default m = default m' := by
  unfold default
  rw [h.timestamp_eq, h.text_eq "message" (by decide)]

theorem withInserts_eq (inserts : List Text) : withInserts m inserts = withInserts m' inserts := by
  unfold withInserts
  rw [h.text_eq "ibm_datetime" (by decide),
    h.text_eq "message" (by decide)]

theorem serverMessage_eq : serverMessage m = serverMessage m' := by
  unfold serverMessage
  rw [h.timestamp_eq, h.requireText_eq "message" (by decide),
    h.has_eq "ibm_messageId" (by decide)]

theorem trace_eq : trace m = trace m' := by
  unfold trace TraceFields.ofMessage
  rw [h.timestamp_eq, h.default_eq, h.requireText_eq "loglevel" (by decide),
    h.requireText_eq "ibm_threadId" (by decide),
    h.requireText_eq "module" (by decide),
    h.requireText_eq "ibm_className" (by decide),
    h.requireText_eq "ibm_methodName" (by decide),
    h.requireText_eq "message" (by decide)]

theorem preferred_cases (hd : m.keys.Nodup) (hd' : m'.keys.Nodup) : preferred m = preferred m' ∨
    (∃ e, preferred m = .error e) ∧ ∃ e, preferred m' = .error e := by
  obtain hsame | ⟨⟨e, he⟩, e', he'⟩ := collect_cases h hd hd'
  · left
    unfold preferred
    simp only [hsame, h.withInserts_eq, h.serverMessage_eq, h.trace_eq, h.default_eq,
      h.text_eq "type" (by decide),
      h.has_eq "loglevel" (by decide)]
  · right
    unfold preferred
    rw [he, he']
    exact ⟨⟨e, rfl⟩, e', rfl⟩

end Layouts

end Agree

/-- Records whose members stand in another order, or that differ in members that cannot be shown,
are written as the same text. -/
theorem render_text_congr (hd : m.keys.Nodup) (hd' : m'.keys.Nodup)
    (h : m.members.Perm m'.members ∨ ∀ key, IsShown key → m.get? key = m'.get? key)
    (line line' : Text) :
    (render .basic line (.record m)).text = (render .basic line' (.record m')).text := by
  have hagree : Agree m m' := by
    obtain hperm | hagree := h
    · exact fun key _ => Message.get?_of_perm hd hperm key
    · exact hagree
  show (basic line (.record m)).text = (basic line' (.record m')).text
  rw [text_basic, text_basic]
  obtain hsame | ⟨⟨e, he⟩, e', he'⟩ := hagree.preferred_cases hd hd'
  · rw [hsame, hagree.default_eq]
  · rw [he, he']
    exact hagree.default_eq

/-- Members with two inserts among them that are no numbers. -/
def insertMembers : List (Text × Json) :=
  [("message", .text "m"), ("ibm_arithInsert1", .bool true), ("host", .null),
    ("ibm_arithInsert2", .text "b")]

/-- The members in their order. -/
def insertLine : Text :=
  "\x7b\"message\":\"m\",\"ibm_arithInsert1\":true,\"host\":null,\"ibm_arithInsert2\":\"b\"\x7d"

/-- The members from the last to the first. -/
def reversedLine : Text :=
  "\x7b\"ibm_arithInsert2\":\"b\",\"host\":null,\"ibm_arithInsert1\":true,\"message\":\"m\"\x7d"

theorem render_reversedLine :
    Entry.ofLine insertLine = .record ⟨insertMembers⟩ ∧
    Entry.ofLine reversedLine = .record ⟨insertMembers.reverse⟩ ∧
    (render .basic insertLine (.record ⟨insertMembers⟩)).text =
      (render .basic reversedLine (.record ⟨insertMembers.reverse⟩)).text := by
  have hline : Entry.ofLine insertLine = .record ⟨insertMembers⟩ := by cbv
  have hreversed : Entry.ofLine reversedLine = .record ⟨insertMembers.reverse⟩ := by cbv
  refine ⟨hline, hreversed, ?_⟩
  apply render_text_congr (Entry.nodup_keys_of_ofLine hline) (Entry.nodup_keys_of_ofLine hreversed)
  exact .inl (List.reverse_perm insertMembers).symm

end Layout

end LogRelay
