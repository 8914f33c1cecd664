import LogRelay.Proofs.Filtering
import LogRelay.Proofs.Overriding

/-!
# Which logs are selected

The selector is normalised in three ways: trimmed and put into lower case as a whole when settings
are loaded, put into lower case and cut when they are validated, and cut, trimmed and put into lower
case entry by entry for every line.  All three see the same names
(`isSelectorValid_normalised_iff`), so a log that is followed for its category is never held back
for it (`selection_agrees`).
-/

namespace LogRelay

theorem Category.isSome_ofName?_iff {name : Text} :
    (Category.ofName? name).isSome ↔ name = "qmgr" ∨ name = "web" := by
  rw [Category.ofName?, List.find?_isSome]
  constructor
  · rintro ⟨c, -, hc⟩
    have hname := of_decide_eq_true hc
    cases c with
    | qmgr => exact .inl hname.symm
    | web => exact .inr hname.symm
  · rintro (rfl | rfl)
    · exact ⟨.qmgr, by decide, by decide⟩
    · exact ⟨.web, by decide, by decide⟩

namespace Settings

variable {value : Text}

theorem isSelectorValid_iff :
    isSelectorValid value ↔ ∀ name, Lists value.lower name → name = "qmgr" ∨ name = "web" := by
  simp only [isSelectorValid, List.all_eq_true, Bool.or_eq_true, List.isEmpty_iff,
    Category.isSome_ofName?_iff]
  constructor
  · rintro h name ⟨hne, entry, hentry, rfl⟩
    exact (h entry hentry).resolve_right hne
  · intro h entry hentry
    by_cases hempty : entry.strip = []
    · exact .inr hempty
    · exact .inl (h _ ⟨hempty, entry, hentry, rfl⟩)

/-- What is validated is what lines are judged by. -/
theorem isSelectorValid_normalised_iff :
    isSelectorValid (normalised value) ↔ ∀ e ∈ (splitCsv value).map Text.lower,
      e = "qmgr" ∨ e = "web" := by
  have hlower : (normalised value).lower = value.strip.lower := Text.lower_lower _
  rw [isSelectorValid_iff, hlower]
  simp only [Text.keeps_lower.lists_iff, lists_strip_iff, List.mem_map, mem_splitCsv_iff]

variable {env : Environment} {s : Settings}

theorem validate_ok_iff (h : load env = .ok s) :
    s.validate = .ok () ↔ ∀ e ∈ (FilterSettings.load env).selector, e = "qmgr" ∨ e = "web" := by
  obtain ⟨-, -, -, -, hsource, -⟩ := load_ok h
  rw [FilterSettings.selector, FilterSettings.load, ← isSelectorValid_normalised_iff, ← hsource,
    validate]
  split
  · next hvalid => simp [hvalid]
  · next hinvalid => simp [hinvalid]

/-! ## Followed logs -/

/-- The log that is always followed. -/
def systemLog (s : Settings) : Source := ⟨"system", s.paths.systemErrorLog, false, false, .qmgr⟩

/-- The logs of the queue manager that are in use: its own, if it has a name and a directory, and
that of the password file. -/
def managerLogs (s : Settings) (qmgrName : Text) (fromStart : Bool)
    (qmgrErrorDir : Option Path) : List Source :=
  (match qmgrErrorDir with
    | some dir =>
      if qmgrName = [] then []
        else [⟨"qmgr", dir.join (Path.ofText s.paths.qmgrErrorLogName), fromStart, true, .qmgr⟩]
    | none => []) ++
  if s.usesHtpasswd then [⟨"htpasswd", s.paths.htpasswdLog, false, false, .qmgr⟩] else []

/-- The log of the web server, if that is in use. -/
def webLogs (s : Settings) : List Source :=
  if s.hasWebServer then [⟨"web", s.paths.webServerLog, false, false, .web⟩] else []

/-- The further logs whose part of the system is in use. -/
def inUse (s : Settings) (qmgrName : Text) (fromStart : Bool)
    (qmgrErrorDir : Option Path) : List Source :=
  s.managerLogs qmgrName fromStart qmgrErrorDir ++ s.webLogs

/-- Logs of one category are taken all or not at all. -/
theorem filter_of_category {selector : List Text} {category : Category} {logs : List Source}
    (h : ∀ source ∈ logs, source.category = category) :
    (logs.filter fun source => Filter.Takes selector source) =
      if isSelected category.name selector then logs else [] := by
  split
  · next hs =>
    refine List.filter_eq_self.2 fun source hsource => ?_
    rw [← h source hsource, Filter.isSelected_iff] at hs
    exact decide_eq_true hs
  · next hs =>
    refine List.filter_eq_nil_iff.2 fun source hsource => ?_
    rw [← h source hsource, Filter.isSelected_iff] at hs
    rwa [decide_eq_true_eq]

variable (s : Settings) (env : Environment) (qmgrName : Text) (fromStart : Bool)
  (qmgrErrorDir : Option Path)

theorem category_of_mem_managerLogs :
    ∀ source ∈ s.managerLogs qmgrName fromStart qmgrErrorDir, source.category = .qmgr := by
  unfold managerLogs
  cases qmgrErrorDir <;> split_ifs <;> simp

theorem category_of_mem_webLogs : ∀ source ∈ s.webLogs, source.category = .web := by
  unfold webLogs
  split_ifs <;> simp

theorem names_managerLogs :
    ((s.managerLogs qmgrName fromStart qmgrErrorDir).map Source.name).Sublist
      ["qmgr", "htpasswd"] := by
  unfold managerLogs
  cases qmgrErrorDir <;> split_ifs <;> simp

theorem names_webLogs : (s.webLogs.map Source.name).Sublist ["web"] := by
  unfold webLogs
  split_ifs <;> simp

theorem sources_eq :
    s.sources env qmgrName fromStart qmgrErrorDir = s.systemLog ::
      (s.inUse qmgrName fromStart qmgrErrorDir).filter fun source =>
        Filter.Takes (FilterSettings.load env).selector source := by
  rw [inUse, List.filter_append, filter_of_category (s.category_of_mem_managerLogs _ _ _),
    filter_of_category s.category_of_mem_webLogs]
  unfold sources managerLogs webLogs systemLog
  cases qmgrErrorDir <;> simp [List.isEmpty_iff]

theorem nodup_names : ((s.sources env qmgrName fromStart qmgrErrorDir).map Source.name).Nodup := by
  have hinUse : ((s.inUse qmgrName fromStart qmgrErrorDir).map Source.name).Sublist
      ["qmgr", "htpasswd", "web"] := by
    rw [inUse, List.map_append]
    exact (s.names_managerLogs _ _ _).append s.names_webLogs
  have htaken :=
    ((List.filter_sublist
      (p := fun source => Filter.Takes (FilterSettings.load env).selector source)).map
    Source.name).trans hinUse
  have hdistinct : (["system", "qmgr", "htpasswd", "web"] : List Text).Nodup := by decide
  rw [sources_eq, List.map_cons]
  exact (htaken.cons_cons _).nodup hdistinct

/-- Settings are valid exactly if every entry of the selector is a category.  The logs that are
followed besides that of the system are those in use whose category the selector takes, all under
names of their own, and no line of them is held back for its category while the environment stays as
it is. -/
theorem selection_agrees {env : Environment} {s : Settings} (h : load env = .ok s) (qmgrName : Text)
    (fromStart : Bool) (qmgrErrorDir : Option Path) :
    (s.validate = .ok () ↔ ∀ e ∈ (FilterSettings.load env).selector, e = "qmgr" ∨ e = "web") ∧
    s.sources env qmgrName fromStart qmgrErrorDir = s.systemLog ::
      ((s.inUse qmgrName fromStart qmgrErrorDir).filter fun source =>
        Filter.Takes (FilterSettings.load env).selector source) ∧
    ((s.sources env qmgrName fromStart qmgrErrorDir).map Source.name).Nodup ∧
    ∀ source ∈ s.sources env qmgrName fromStart qmgrErrorDir, source.name ≠ "system" →
      ∀ ctx : Pipeline.Context, ctx.environment = env → ∀ line,
        (Pipeline.process ctx source line).verdict ≠ .suppressed .sourceNotSelected := by
  refine ⟨validate_ok_iff h, s.sources_eq env _ _ _, s.nodup_names env _ _ _, ?_⟩
  rintro source hsource hname ctx rfl line hverdict
  rw [sources_eq, List.mem_cons] at hsource
  obtain rfl | hsource := hsource
  · exact hname rfl
  · have htakes : Filter.Takes (FilterSettings.load ctx.environment).selector source :=
      of_decide_eq_true (List.mem_filter.1 hsource).2
    cases Pipeline.reason?_eq_iff.1 (Pipeline.verdict_eq_suppressed_iff.1 hverdict) with
    | unselected _ _ hnot => exact hnot htakes

/-- Only the log of the web server is selected, in a spelling of its own, and all parts are in
use. -/
def webOnly : Environment :=
  ⟨[("MQ_LOGGING_CONSOLE_SOURCE", " Web ,,"), ("MQ_CONNAUTH_USE_HTP", "true"),
    ("MQ_ENABLE_EMBEDDED_WEB_SERVER", "true")]⟩

theorem selection_webOnly : ∃ s, load webOnly = .ok s ∧ s.validate = .ok () ∧
    (s.sources webOnly "QM1" false (some ⟨.slash, ["errors"]⟩)).map Source.name =
      ["system", "web"] ∧
    ∀ source ∈ s.sources webOnly "QM1" false (some ⟨.slash, ["errors"]⟩),
      source.name ≠ "system" → ∀ line,
      (Pipeline.process ⟨.basic, webOnly, .ok []⟩ source line).verdict ≠
        .suppressed .sourceNotSelected := by
  have hnames : ((load webOnly).toOption.map fun s =>
      (s.sources webOnly "QM1" false (some ⟨.slash, ["errors"]⟩)).map Source.name) =
        some (["system", "web"] : List Text) := by
    decide +kernel
  cases h : load webOnly with
  | error f =>
    rw [h] at hnames
    cases hnames
  | ok s =>
    rw [h] at hnames
    obtain ⟨hvalid, -, -, hlines⟩ := selection_agrees h "QM1" false (some ⟨.slash, ["errors"]⟩)
    refine ⟨s, rfl, hvalid.2 (by decide +kernel), Option.some.inj hnames,
      fun source hsource hname line => ?_⟩
    exact hlines source hsource hname ⟨.basic, webOnly, .ok []⟩ rfl line

end Settings

end LogRelay
