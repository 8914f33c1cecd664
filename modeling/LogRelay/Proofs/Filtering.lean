import LogRelay.Proofs.Case
import LogRelay.Proofs.Console

/-!
# What is held back

The filters are run in two stages, before and after a line is decoded.  Together they hold a line
back for the first reason that applies to it (`Filter.Decides`), in both formats alike, and every
other line is written (`process_decides`).

A line is excluded by the names that a value lists, whatever their order, spacing and case
(`checkRaw_excludes`).
-/

namespace LogRelay

theorem Text.occursIn_iff {part t : Text} : part.occursIn t ↔ part <:+: t := by
  induction t with
  | nil => simp [occursIn]
  | cons c t ih =>
    rw [occursIn, Bool.or_eq_true, ih, List.isPrefixOf_iff_prefix, List.infix_cons_iff]

/-! ## Lists of names -/

/-- An entry of the value is the name, apart from blank space around it. -/
def Lists (value name : Text) : Prop := name ≠ [] ∧ ∃ entry ∈ value.split ',', entry.strip = name

variable {value name : Text}

theorem mem_splitCsv_iff : name ∈ splitCsv value ↔ Lists value name := by
  simp [splitCsv, Lists, and_comm]

theorem strip_of_lists (h : Lists value name) : name.strip = name := by
  obtain ⟨-, entry, -, rfl⟩ := h
  exact Text.strip_strip entry

theorem lists_append_cons_iff {front back : Text} :
    Lists (front ++ (',' : CodePoint) :: back) name ↔ Lists front name ∨ Lists back name := by
  have hsplit : (front ++ (',' : CodePoint) :: back).split ',' =
      front.split ',' ++ back.split ',' :=
    pieces_append_cons _ _ _
  simp only [Lists, hsplit, List.mem_append]
  grind

theorem lists_of_notMem (h : (',' : CodePoint) ∉ value) :
    Lists value name ↔ name ≠ [] ∧ value.strip = name := by
  have hsplit : value.split ',' = [value] := pieces_of_notMem h
  simp [Lists, hsplit]

/-- The names that a value lists may be mapped before or after. -/
theorem Text.Keeps.lists_iff {f : Text → Text} (hf : Keeps f) :
    Lists (f value) name ↔ ∃ id, Lists value id ∧ f id = name := by
  rw [Lists, hf.split]
  constructor
  · rintro ⟨hne, entry, hentry, rfl⟩
    obtain ⟨e, he, rfl⟩ := List.mem_map.1 hentry
    rw [hf.strip] at hne ⊢
    exact ⟨e.strip, ⟨mt hf.eq_nil_iff.2 hne, e, he, rfl⟩, rfl⟩
  · rintro ⟨id, ⟨hne, e, he, rfl⟩, rfl⟩
    exact ⟨mt hf.eq_nil_iff.1 hne, f e, List.mem_map_of_mem he, hf.strip e⟩

/-! ### Blank space around the value -/

section Blank

variable {blank : Text} (hblank : ∀ c ∈ blank, Text.isBlank c)

include hblank

theorem comma_notMem_of_blank : (',' : CodePoint) ∉ blank :=
  fun h => absurd (hblank _ h) (by decide)

theorem lists_blank_append_iff : Lists (blank ++ value) name ↔ Lists value name := by
  have hcomma := comma_notMem_of_blank hblank
  by_cases hvalue : (',' : CodePoint) ∈ value
  · obtain ⟨front, back, rfl, hfront⟩ := List.eq_append_cons_of_mem hvalue
    rw [← List.append_assoc, lists_append_cons_iff, lists_append_cons_iff, lists_of_notMem hfront,
      lists_of_notMem (List.not_mem_append hcomma hfront), Text.strip_blank_append hblank]
  · rw [lists_of_notMem hvalue, lists_of_notMem (List.not_mem_append hcomma hvalue),
      Text.strip_blank_append hblank]

theorem lists_append_blank_iff : Lists (value ++ blank) name ↔ Lists value name := by
  have hcomma := comma_notMem_of_blank hblank
  by_cases hvalue : (',' : CodePoint) ∈ value
  · obtain ⟨front, back, rfl, hback⟩ := exists_eq_append_cons_of_mem hvalue
    rw [List.append_assoc, List.cons_append, lists_append_cons_iff, lists_append_cons_iff,
      lists_of_notMem hback, lists_of_notMem (List.not_mem_append hback hcomma),
      Text.strip_append_blank _ hblank]
  · rw [lists_of_notMem hvalue, lists_of_notMem (List.not_mem_append hvalue hcomma),
      Text.strip_append_blank _ hblank]

end Blank

theorem lists_strip_iff : Lists value.strip name ↔ Lists value name := by
  obtain ⟨before, behind, hbefore, hbehind, heq, -⟩ := Text.exists_strip value
  calc Lists value.strip name ↔ Lists (before ++ (value.strip ++ behind)) name := by
        rw [lists_blank_append_iff hbefore, lists_append_blank_iff hbehind]
    _ ↔ Lists value name := by rw [← heq]

namespace Filter

/-! ## Excluded lines -/

/-- One of the listed names stands somewhere in the line, upper and lower case alike. -/
def Excludes (value line : Text) : Prop := ∃ id, Lists value id ∧ id.upper <:+: line.upper

variable {s : FilterSettings} {line : Text}

theorem isExcluded_iff {ids : List Text} :
    isExcluded line ids ↔ ∃ id ∈ ids, id.strip ≠ [] ∧ id.strip.upper <:+: line.upper := by
  have hany : isExcluded line ids =
      ((ids.map fun id => id.strip.upper).filter fun id => !id.isEmpty).any
      fun id => id.occursIn line.upper := by
    unfold isExcluded
    split
    · next h => rw [h, List.any_nil]
    · rfl
  rw [hany, List.any_eq_true]
  simp only [List.mem_filter, List.mem_map, Text.occursIn_iff, Bool.not_eq_true',
    List.isEmpty_eq_false_iff]
  constructor
  · rintro ⟨_, ⟨⟨id, hid, rfl⟩, hne⟩, hinfix⟩
    exact ⟨id, hid, mt Text.keeps_upper.eq_nil_iff.2 hne, hinfix⟩
  · rintro ⟨id, hid, hne, hinfix⟩
    exact ⟨_, ⟨⟨id, hid, rfl⟩, mt Text.keeps_upper.eq_nil_iff.1 hne⟩, hinfix⟩

theorem isExcluded_splitCsv_iff : isExcluded line (splitCsv value) ↔ Excludes value line := by
  rw [isExcluded_iff]
  constructor
  · rintro ⟨id, hid, -, hinfix⟩
    have hlists := mem_splitCsv_iff.1 hid
    rw [strip_of_lists hlists] at hinfix
    exact ⟨id, hlists, hinfix⟩
  · rintro ⟨id, hlists, hinfix⟩
    have hstrip := strip_of_lists hlists
    exact ⟨id, mem_splitCsv_iff.2 hlists, hstrip.symm ▸ hlists.1, hstrip.symm ▸ hinfix⟩

/-- The identifiers are as they are compared. -/
theorem map_excluded (s : FilterSettings) :
    (s.excluded.map fun id => id.strip.upper) = s.excluded := by
  rw [FilterSettings.excluded, List.map_map]
  refine List.map_congr_left fun id hid => ?_
  rw [Function.comp_apply, Text.keeps_upper.strip, strip_of_lists (mem_splitCsv_iff.1 hid),
    Text.upper_upper]

/-- It makes no difference that the identifiers are put into upper case when they are loaded. -/
theorem isExcluded_excluded (s : FilterSettings) (line : Text) :
    isExcluded line s.excluded = isExcluded line (splitCsv s.excludeIds) := by
  have hentries : ((splitCsv s.excludeIds).map fun id => id.strip.upper) = s.excluded := by
    refine List.map_congr_left fun id hid => ?_
    rw [strip_of_lists (mem_splitCsv_iff.1 hid)]
  unfold isExcluded
  rw [map_excluded, hentries]

theorem checkRaw_eq_some_iff : checkRaw s line = some .excludedId ↔ Excludes s.excludeIds line := by
  rw [← isExcluded_splitCsv_iff, ← isExcluded_excluded, checkRaw]
  split
  · next h => simp [h]
  · next h => simp [h]

theorem checkRaw_passes_iff : checkRaw s line = none ↔ ¬ Excludes s.excludeIds line := by
  rw [← checkRaw_eq_some_iff, checkRaw]
  split <;> simp

theorem checkRaw_congr {s' : FilterSettings} {line' : Text}
    (h : Excludes s'.excludeIds line' ↔ Excludes s.excludeIds line) :
    checkRaw s' line' = checkRaw s line := by
  by_cases hx : Excludes s.excludeIds line
  · rw [checkRaw_eq_some_iff.2 hx, checkRaw_eq_some_iff.2 (h.2 hx)]
  · rw [checkRaw_passes_iff.2 hx, checkRaw_passes_iff.2 (mt h.1 hx)]

theorem Excludes.mono {value' : Text} (h : ∀ id, Lists value id → Lists value' id)
    (hx : Excludes value line) : Excludes value' line := by
  obtain ⟨id, hid, hinfix⟩ := hx
  exact ⟨id, h id hid, hinfix⟩

/-- Only the upper case of the value and of the line counts. -/
theorem excludes_iff_upper :
    Excludes value line ↔ ∃ name, Lists value.upper name ∧ name <:+: line.upper := by
  simp only [Text.keeps_upper.lists_iff]
  constructor
  · rintro ⟨id, hid, hinfix⟩
    exact ⟨_, ⟨id, hid, rfl⟩, hinfix⟩
  · rintro ⟨_, ⟨id, hid, rfl⟩, hinfix⟩
    exact ⟨id, hid, hinfix⟩

/-- A line is held back before it is decoded exactly if it holds a listed identifier.  It does not
matter in which order and how often identifiers are listed nor with what blank space and blank
entries, nor in which case the letters of ASCII are written in the value or in the line; more
entries hold back more lines; and an identifier is already as it is compared. -/
theorem checkRaw_excludes (s : FilterSettings) (line : Text) :
    (checkRaw s line = some .excludedId ↔ Excludes s.excludeIds line) ∧
    (checkRaw s line = none ↔ ¬ Excludes s.excludeIds line) ∧
    (∀ s' : FilterSettings, (∀ id, Lists s'.excludeIds id ↔ Lists s.excludeIds id) →
      checkRaw s' line = checkRaw s line) ∧
    (∀ (s' : FilterSettings) (line' : Text), s'.excludeIds.lowerAscii = s.excludeIds.lowerAscii →
      line'.lowerAscii = line.lowerAscii → checkRaw s' line' = checkRaw s line) ∧
    (∀ s' : FilterSettings, s.excludeIds.split ',' ⊆ s'.excludeIds.split ',' →
      checkRaw s line = some .excludedId → checkRaw s' line = some .excludedId) ∧
    (s.excluded.map fun id => id.strip.upper) = s.excluded ∧
    isExcluded line s.excluded = isExcluded line (splitCsv s.excludeIds) := by
  refine ⟨checkRaw_eq_some_iff, checkRaw_passes_iff,
    fun s' h => ?_, fun s' line' hvalue hline => ?_,
    fun s' hmore hx => ?_, map_excluded s, isExcluded_excluded s line⟩
  · exact checkRaw_congr ⟨Excludes.mono fun id => (h id).1, Excludes.mono fun id => (h id).2⟩
  · apply checkRaw_congr
    rw [excludes_iff_upper, excludes_iff_upper, Text.upper_congr hvalue, Text.upper_congr hline]
  · rw [checkRaw_eq_some_iff] at hx ⊢
    exact hx.mono fun id ⟨hne, entry, hentry, heq⟩ => ⟨hne, entry, hmore hentry, heq⟩

example : checkRaw ⟨" amq5051i ,,", [], []⟩ "AMQ5051I: The task has started" =
    some .excludedId := by decide +kernel

/-! ## All filters -/

/-- Another instance wrote the line, as far as that can be told: the line is a record of a queue
manager log, and the own host name is known and does not stand in the name of its host. -/
def Foreign (s : FilterSettings) (host : HostName) (source : Source) (line : Text) : Prop :=
  source.isQmgrLog ∧ s.isMultiInstance ∧
    ∃ m name, Entry.ofLine line = .record m ∧ host = .ok name ∧ ¬ name <:+: m.text "host"

/-- The selector takes the category of the source: it is empty or lists it. -/
def Takes (selector : List Text) (source : Source) : Prop :=
  selector = [] ∨ source.category.name ∈ selector

instance (selector : List Text) (source : Source) : Decidable (Takes selector source) :=
  inferInstanceAs (Decidable (_ ∨ _))

/-- What the filters come to: the first reason that applies counts. -/
inductive Decides (s : FilterSettings) (host : HostName) (source : Source) (line : Text) :
    Option Suppression → Prop
  | excluded (h : Excludes s.excludeIds line) : Decides s host source line (some .excludedId)
  | foreign (passed : ¬ Excludes s.excludeIds line) (h : Foreign s host source line) :
    Decides s host source line (some .foreignHost)
  | unselected (passed : ¬ Excludes s.excludeIds line) (own : ¬ Foreign s host source line)
    (h : ¬ Takes s.selector source) : Decides s host source line (some .sourceNotSelected)
  | passes (passed : ¬ Excludes s.excludeIds line) (own : ¬ Foreign s host source line)
    (h : Takes s.selector source) : Decides s host source line none

variable {host : HostName} {source : Source}

theorem isSelected_iff {selector : List Text} :
    isSelected source.category.name selector ↔ Takes selector source := by
  have hknown : (Category.ofName? source.category.name).isSome := by cases source.category <;> rfl
  rw [isSelected, hknown, Bool.and_true, Bool.or_eq_true, List.isEmpty_iff,
    List.contains_iff_mem, Takes]

theorem mem_hostFiltered?_iff {entry : Entry} {m : Message} :
    m ∈ hostFiltered? s source entry ↔ source.isQmgrLog ∧ s.isMultiInstance ∧
    entry = .record m := by
  unfold hostFiltered?
  cases entry <;> simp [Entry.message?, and_assoc]

theorem checkDecoded_of_foreign (h : Foreign s host source line) :
    checkDecoded s host source (Entry.ofLine line) = some .foreignHost := by
  obtain ⟨hlog, hon, m, name, hrecord, hhost, hname⟩ := h
  have hmessage : hostFiltered? s source (Entry.ofLine line) = some m :=
    mem_hostFiltered?_iff.2 ⟨hlog, hon, hrecord⟩
  have hforeign : isForeign m name = true := by
    rw [isForeign, Bool.not_eq_true', Bool.eq_false_iff, ne_eq, Text.occursIn_iff]
    exact hname
  unfold checkDecoded
  rw [hmessage, hhost]
  dsimp only
  rw [hforeign, if_pos rfl]

theorem checkDecoded_of_not_foreign (h : ¬ Foreign s host source line) :
    checkDecoded s host source (Entry.ofLine line) =
      if isSelected source.category.name s.selector then none else some .sourceNotSelected := by
  unfold checkDecoded
  dsimp only
  split
  · next _ _ m name hmessage =>
    have hown : isForeign m name = false := by
      rw [isForeign, Bool.not_eq_false', Text.occursIn_iff]
      by_contra hname
      obtain ⟨hlog, hon, hrecord⟩ := mem_hostFiltered?_iff.1 hmessage
      exact h ⟨hlog, hon, m, name, hrecord, rfl, hname⟩
    simp only [hown, Bool.false_eq_true, if_false]
  · rw [if_neg Bool.false_ne_true]

theorem check_decides (s : FilterSettings) (host : HostName) (source : Source) (line : Text) :
    Decides s host source line (check s host source line (Entry.ofLine line)) := by
  unfold check
  by_cases hx : Excludes s.excludeIds line
  · rw [checkRaw_eq_some_iff.2 hx, Option.some_or]
    exact .excluded hx
  · rw [checkRaw_passes_iff.2 hx, Option.none_or]
    by_cases hforeign : Foreign s host source line
    · rw [checkDecoded_of_foreign hforeign]
      exact .foreign hx hforeign
    · rw [checkDecoded_of_not_foreign hforeign]
      split
      · next hselected => exact .passes hx hforeign (isSelected_iff.1 hselected)
      · next hselected => exact .unselected hx hforeign (mt isSelected_iff.2 hselected)

theorem Decides.check_eq {r : Option Suppression} (h : Decides s host source line r) :
    check s host source line (Entry.ofLine line) = r := by
  unfold check
  cases h with
  | excluded h => rw [checkRaw_eq_some_iff.2 h, Option.some_or]
  | foreign passed h => rw [checkRaw_passes_iff.2 passed, Option.none_or, checkDecoded_of_foreign h]
  | unselected passed own h =>
    rw [checkRaw_passes_iff.2 passed, Option.none_or, checkDecoded_of_not_foreign own,
      if_neg (mt isSelected_iff.1 h)]
  | passes passed own h =>
    rw [checkRaw_passes_iff.2 passed, Option.none_or, checkDecoded_of_not_foreign own,
      if_pos (isSelected_iff.2 h)]

theorem check_eq_iff {r : Option Suppression} :
    check s host source line (Entry.ofLine line) = r ↔ Decides s host source line r :=
  ⟨fun h => h ▸ check_decides s host source line, Decides.check_eq⟩

end Filter

namespace Pipeline

variable {ctx : Context} {source : Source} {line : Text}

theorem verdict_eq_suppressed_iff {reason : Suppression} :
    (process ctx source line).verdict = .suppressed reason ↔
    reason? ctx source line = some reason := by
  rw [verdict_process]
  cases reason? ctx source line with
  | some other => simp
  | none =>
    dsimp only
    rw [write]
    split <;> simp

theorem reason?_eq_iff {r : Option Suppression} :
    reason? ctx source line = r ↔
    Filter.Decides (FilterSettings.load ctx.environment) ctx.host source line r :=
  Filter.check_eq_iff

/-- A line is held back for a reason exactly if the filters, run on what the line holds, come to
this reason, and is written in the layout of the format otherwise.  The reasons are told by
`Filter.Decides`; they are the same in both formats, and a line that is no record is never taken for
that of another instance. -/
theorem process_decides (ctx : Context) (source : Source) (line : Text) :
    (∀ reason, (process ctx source line).verdict = .suppressed reason ↔
      Filter.check (FilterSettings.load ctx.environment) ctx.host source line (Entry.ofLine line) =
        some reason) ∧
    (Filter.check (FilterSettings.load ctx.environment) ctx.host source line (Entry.ofLine line) =
        none →
      (process ctx source line).verdict =
        write (Layout.render ctx.format line (Entry.ofLine line)).text) ∧
    (∀ r, Filter.check (FilterSettings.load ctx.environment) ctx.host source line
        (Entry.ofLine line) = r ↔
      Filter.Decides (FilterSettings.load ctx.environment) ctx.host source line r) ∧
    (∀ format reason, (process { ctx with format } source line).verdict = .suppressed reason ↔
      (process ctx source line).verdict = .suppressed reason) ∧
    ((∀ m, Entry.ofLine line ≠ .record m) →
      (process ctx source line).verdict ≠ .suppressed .foreignHost) := by
  refine ⟨fun reason => verdict_eq_suppressed_iff, fun hnone => ?_, fun r => Filter.check_eq_iff,
    fun format reason => ?_, fun hrecord hforeign => ?_⟩
  · have hreason : reason? ctx source line = none := hnone
    rw [verdict_process, hreason]
  · rw [verdict_eq_suppressed_iff, verdict_eq_suppressed_iff, reason?_eq_iff, reason?_eq_iff]
  · cases reason?_eq_iff.1 (verdict_eq_suppressed_iff.1 hforeign) with
    | foreign _ h =>
      obtain ⟨-, -, m, name, hm, -⟩ := h
      exact hrecord m hm

end Pipeline

end LogRelay
