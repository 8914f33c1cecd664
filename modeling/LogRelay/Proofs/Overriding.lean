import LogRelay.Proofs.Case
import LogRelay.Proofs.Disk
import LogRelay.Proofs.Json
import LogRelay.Settings.File
import Mathlib.Data.List.Nodup

/-!
# Variables and the settings file

The settings file may give values to twelve variables.  Each of them is filled on its own
(`SettingsFile.fill_alone`): for everything that is looked up under its name, the environment at the
end is the one that it was filled in, because no two of the names differ in case only.

The file asks whether a variable is set under its exact name, while settings are looked up in any
case, the last spelling first.  So a variable overrides the file if it is set under its exact name;
another spelling of it is overridden by the file (`Settings.boot_overriding`).
-/

namespace LogRelay

/-! ## Looking up variables -/

namespace Environment

/-- The variables with a name, in any case. -/
def spellings (env : Environment) (name : Text) : List (Text × Text) :=
  env.entries.filter fun v => v.1.lower == name.lower

/-- The same variables have a name, in any case. -/
def Agrees (env env' : Environment) (name : Text) : Prop := env.spellings name = env'.spellings name

variable {env env' : Environment} {name other value : Text}

theorem find?_eq (env : Environment) (name : Text) :
    env.find? name = (env.spellings name).getLast?.map Prod.snd := by
  rw [find?, spellings, ← List.head?_filter, List.filter_reverse, List.head?_reverse]

theorem get?_eq (env : Environment) (name : Text) :
    env.get? name = (env.spellings name).lookup name := by
  refine (lookup_filter_of_imp fun v _ hv => ?_).symm
  rw [hv]
  exact beq_self_eq_true _

namespace Agrees

theorem find?_eq (h : env.Agrees env' name) : env.find? name = env'.find? name := by
  rw [Environment.find?_eq, Environment.find?_eq, h]

theorem get?_eq (h : env.Agrees env' name) : env.get? name = env'.get? name := by
  rw [Environment.get?_eq, Environment.get?_eq, h]

/-- Values that do not count are left out on both sides. -/
theorem filter (h : env.Agrees env' name) (p : Text × Text → Bool) :
    Agrees ⟨env.entries.filter p⟩ ⟨env'.entries.filter p⟩ name := by
  have hboth := congrArg (List.filter p) h
  unfold Agrees spellings at *
  simpa only [List.filter_filter, Bool.and_comm] using hboth

/-- One more variable at the end on both sides. -/
theorem append (h : env.Agrees env' name) (v : Text × Text) :
    Agrees ⟨env.entries ++ [v]⟩ ⟨env'.entries ++ [v]⟩ name := by
  unfold Agrees spellings at *
  rw [List.filter_append, List.filter_append, h]

end Agrees

/-- A variable that is not set under its exact name is set behind the others. -/
theorem set_eq (hname : Text.settled name = name) (h : env.get? name = none) :
    env.set name value = ⟨env.entries ++ [(name, Text.settled value)]⟩ := by
  have hnot : name ∉ env.entries.map Prod.fst := by
    intro hmem
    obtain ⟨v, hv, rfl⟩ := List.mem_map.1 hmem
    have hne := List.lookup_eq_none_iff.1 h v hv
    simp at hne
  rw [set, hname, Json.putMember_of_notMem hnot]

theorem agrees_set (hname : Text.settled name = name) (h : env.get? name = none)
    (hother : other.lower ≠ name.lower) : env.Agrees (env.set name value) other := by
  rw [set_eq hname h]
  unfold Agrees spellings
  have hne : (name.lower == other.lower) = false := beq_false_of_ne (Ne.symm hother)
  simp [List.filter_append, hne]

/-- What was set last is seen, whatever other spellings of the name are set. -/
theorem find?_set (hname : Text.settled name = name) (h : env.get? name = none) :
    (env.set name value).find? name = some (Text.settled value) := by
  rw [find?_eq, set_eq hname h]
  simp [spellings, List.filter_append]

end Environment

/-! ## Filling variables -/

namespace SettingsFile

open Environment

/-- A file gives a text to a variable. -/
def Mapping.Gives (m : Mapping) (data : Yaml.Document) (t : Text) : Prop :=
  ∃ d, m.value data = .ok d ∧ d ≠ nothing ∧ variableText data d = .ok t

variable {data : Yaml.Document} {env env' env₁ : Environment} {m : Mapping} {name : Text}

/-- Whether a text can be stored does not depend on the environment. -/
theorem store_ok {t : Text} (h : store env name t = .ok env') (other : Environment) :
    env' = env.set name t ∧ store other name t = .ok (other.set name t) := by
  unfold store at h ⊢
  split at h
  · cases h
  · split at h
    · cases h
    · next hnul => exact ⟨(Except.ok.inj h).symm, if_neg hnul⟩

/-- A variable is filled if it is not set under its exact name and the file gives it a text. -/
theorem fillOne_cases (h : fillOne data env m = .ok env') :
    (env' = env ∧ ((env.get? m.variableName).isSome ∨ ∀ t, ¬ m.Gives data t)) ∨
      (env.get? m.variableName = none ∧ ∃ t, m.Gives data t ∧ env' = env.set m.variableName t) := by
  unfold fillOne at h
  split at h
  · next hset => exact .inl ⟨(Except.ok.inj h).symm, .inl hset⟩
  · next hset =>
    have hnone : env.get? m.variableName = none := by simpa using hset
    split at h
    · cases h
    · next hvalue =>
      refine .inl ⟨(Except.ok.inj h).symm, .inr fun t ⟨d, hd, hne, _⟩ => ?_⟩
      rw [hvalue] at hd
      exact hne (Except.ok.inj hd).symm
    · next d hnull hvalue =>
      split at h
      · cases h
      · next t ht =>
        refine .inr ⟨hnone, t, ⟨d, hvalue, fun hd => ?_, ht⟩, ?_⟩
        · exact hnull hd
        · exact (store_ok h env).1

/-- The variables that a file may fill, in lower case. -/
theorem nodup_lower : (mappings.map fun m => m.variableName.lower).Nodup := by decide

theorem settled_variableName : ∀ m ∈ mappings, Text.settled m.variableName = m.variableName := by
  decide

theorem fillOne_agrees (h : fillOne data env m = .ok env')
    (hm : Text.settled m.variableName = m.variableName)
    (hne : name.lower ≠ m.variableName.lower) : env.Agrees env' name := by
  obtain ⟨rfl, -⟩ | ⟨hnone, t, -, rfl⟩ := fillOne_cases h
  · rfl
  · exact agrees_set hm hnone hne

/-- What is looked up under none of the names is left as it is. -/
theorem fillFrom_agrees {ms : List Mapping} (h : fillFrom data env ms = (env', none))
    (hms : ∀ m ∈ ms, Text.settled m.variableName = m.variableName)
    (hne : ∀ m ∈ ms, name.lower ≠ m.variableName.lower) : env.Agrees env' name := by
  induction ms generalizing env with
  | nil =>
    obtain rfl := congrArg Prod.fst h
    rfl
  | cons m ms ih =>
    unfold fillFrom at h
    split at h
    · cases congrArg Prod.snd h
    · next env₁ h₁ =>
      have hfirst := fillOne_agrees h₁ (hms m List.mem_cons_self) (hne m List.mem_cons_self)
      exact hfirst.trans (ih h (fun m' hm' => hms m' (List.mem_cons_of_mem m hm'))
        fun m' hm' => hne m' (List.mem_cons_of_mem m hm'))

/-- Whether a variable is filled, and with what, depends on its own name only. -/
theorem fillOne_congr (hm : Text.settled m.variableName = m.variableName)
    (hsame : env.Agrees env₁ m.variableName) {after₁ : Environment}
    (h : fillOne data env₁ m = .ok after₁) :
    ∃ after, fillOne data env m = .ok after ∧ ∀ name, env.Agrees env₁ name →
    after.Agrees after₁ name := by
  have hget := hsame.get?_eq
  unfold fillOne at h ⊢
  rw [hget]
  split at h
  · next hset =>
    obtain rfl := Except.ok.inj h
    exact ⟨env, if_pos hset, fun _ ha => ha⟩
  · next hset =>
    have hnone : env₁.get? m.variableName = none := by simpa using hset
    rw [if_neg hset]
    split at h
    · cases h
    · obtain rfl := Except.ok.inj h
      exact ⟨env, rfl, fun _ ha => ha⟩
    · split at h
      · cases h
      · next t ht =>
        obtain ⟨rfl, hstore⟩ := store_ok h env
        refine ⟨_, hstore, fun name ha => ?_⟩
        rw [set_eq hm hnone, set_eq hm (hget.trans hnone)]
        exact ha.append _

/-- Each variable is filled as if it were the only one. -/
theorem fillFrom_alone {ms : List Mapping} (h : fillFrom data env ms = (env', none))
    (hms : ∀ m ∈ ms, Text.settled m.variableName = m.variableName)
    (hnodup : (ms.map fun m => m.variableName.lower).Nodup) (hm : m ∈ ms) :
    ∃ alone, fillOne data env m = .ok alone ∧ ∀ name,
      (∀ m' ∈ ms, name.lower = m'.variableName.lower → m' = m) → alone.Agrees env' name := by
  induction ms generalizing env with
  | nil => cases hm
  | cons first ms ih =>
    unfold fillFrom at h
    split at h
    · cases congrArg Prod.snd h
    · next env₁ h₁ =>
      have hms' : ∀ m' ∈ ms, Text.settled m'.variableName = m'.variableName :=
        fun m' hm' => hms m' (List.mem_cons_of_mem first hm')
      rw [List.map_cons, List.nodup_cons] at hnodup
      obtain ⟨hfirst, hnodup⟩ := hnodup
      have hdistinct : ∀ m' ∈ ms, m'.variableName.lower ≠ first.variableName.lower :=
        fun m' hm' heq => hfirst (heq ▸ List.mem_map_of_mem hm')
      rcases List.mem_cons.1 hm with rfl | hm
      · refine ⟨env₁, h₁, fun name hname => fillFrom_agrees h hms' fun m' hm' heq => ?_⟩
        obtain rfl := hname m' (List.mem_cons_of_mem _ hm') heq
        exact hdistinct _ hm' rfl
      · obtain ⟨alone₁, halone₁, hagrees⟩ := ih h hms' hnodup hm
        have hsettled := hms first List.mem_cons_self
        have hsame : env.Agrees env₁ m.variableName := fillOne_agrees h₁ hsettled (hdistinct m hm)
        obtain ⟨alone, halone, hafter⟩ := fillOne_congr (hms' m hm) hsame halone₁
        refine ⟨alone, halone, fun name hname => ?_⟩
        have hne : name.lower ≠ first.variableName.lower := by
          intro heq
          obtain rfl := hname first List.mem_cons_self heq
          exact hdistinct _ hm rfl
        have hrest := hagrees name fun m' hm' heq => hname m' (List.mem_cons_of_mem first hm') heq
        exact (hafter name (fillOne_agrees h₁ hsettled hne)).trans hrest

/-! ### The whole file -/

theorem Mapping.Gives.unique {t t' : Text} (h : m.Gives data t)
    (h' : m.Gives data t') : t = t' := by
  obtain ⟨d, hd, -, ht⟩ := h
  obtain ⟨d', hd', -, ht'⟩ := h'
  rw [hd] at hd'
  obtain rfl := Except.ok.inj hd'
  rw [ht] at ht'
  exact Except.ok.inj ht'

theorem not_gives_empty (hm : m ∈ mappings) (t : Text) : ¬ m.Gives .empty t := by
  rintro ⟨d, hd, hne, -⟩
  have hnothing : ∀ m ∈ mappings, m.value .empty = .ok nothing := fun _ _ => rfl
  rw [hnothing m hm] at hd
  exact hne (Except.ok.inj hd).symm

theorem exists_of_bind_eq_ok {α β : Type} {x : Except Failure α} {k : α → Except Failure β} {b : β}
    (h : x >>= k = .ok b) : ∃ a, x = .ok a ∧ k a = .ok b := by
  cases x with
  | error f => cases h
  | ok a => exact ⟨a, rfl, h⟩

theorem read_eq {d : Disk} {path : Text} {bytes : Bytes} (hthere : d.isThere path)
    (hread : d.read path = .ok bytes) :
    read d path = (Yaml.parse (Feed.ofOctets bytes)).map fun data =>
      if data.isVoid data.root then .empty else data := by
  have hmap (parsed : Except Failure Yaml.Document) :
      (parsed >>= fun data => pure (if data.isVoid data.root then .empty else data)) =
        parsed.map fun data => if data.isVoid data.root then .empty else data := by
    cases parsed <;> rfl
  unfold read
  rw [if_pos hthere, hread, ← hmap]
  exact pure_bind bytes _

/-- A file that holds nothing is read as an empty map. -/
theorem eq_empty_of_read {d : Disk} {path : Text} (h : read d path = .ok data)
    (hvoid : data.isVoid data.root) : data = .empty := by
  unfold read at h
  split at h
  · obtain ⟨bytes, -, h⟩ := exists_of_bind_eq_ok h
    obtain ⟨parsed, -, h⟩ := exists_of_bind_eq_ok h
    by_cases hparsed : parsed.isVoid parsed.root
    · rw [if_pos hparsed] at h
      exact (Except.ok.inj h).symm
    · rw [if_neg hparsed] at h
      obtain rfl := Except.ok.inj h
      exact absurd hvoid hparsed
  · exact (Except.ok.inj h).symm

theorem eq_empty_of_load {d : Disk} (h : load d env = .ok data) (hvoid : data.isVoid data.root) :
    data = .empty := by
  unfold load at h
  split at h
  · exact eq_empty_of_read h hvoid
  · exact (Except.ok.inj h).symm

/-- No other variable of the file is looked up under the name. -/
def Mapping.Owns (m : Mapping) (name : Text) : Prop :=
  ∀ m' ∈ mappings, name.lower = m'.variableName.lower → m' = m

theorem owns_variableName (hm : m ∈ mappings) : m.Owns m.variableName :=
  fun _ hm' heq => (List.inj_on_of_nodup_map nodup_lower hm hm' heq).symm

/-- After a file was loaded, what is looked up under the name of a variable is what it was before,
unless the file has given it a text. -/
theorem fill_alone {d : Disk} (hload : load d env = .ok data) (h : fill data env = (env', none))
    (hm : m ∈ mappings) (hname : m.Owns name) :
    ((env.get? m.variableName).isSome ∨ (∀ t, ¬ m.Gives data t) → env.Agrees env' name) ∧
      ∀ t, env.get? m.variableName = none → m.Gives data t →
        (env.set m.variableName t).Agrees env' name := by
  unfold fill at h
  split at h
  · next hvoid =>
    obtain rfl := eq_empty_of_load hload hvoid
    obtain rfl := congrArg Prod.fst h
    exact ⟨fun _ => rfl, fun t _ hgives => absurd hgives (not_gives_empty hm t)⟩
  · obtain ⟨alone, halone, hagrees⟩ := fillFrom_alone h settled_variableName nodup_lower hm
    have hafter := hagrees name hname
    obtain ⟨rfl, hkept⟩ | ⟨hnone, t, hgives, rfl⟩ := fillOne_cases halone
    · refine ⟨fun _ => hafter, fun t hnone hgives => ?_⟩
      obtain hset | hno := hkept
      · simp [hnone] at hset
      · exact absurd hgives (hno t)
    · refine ⟨fun hkept => ?_, fun t' _ hgives' => ?_⟩
      · obtain hset | hno := hkept
        · simp [hnone] at hset
        · exact absurd hgives (hno t)
      · obtain rfl := hgives.unique hgives'
        exact hafter

end SettingsFile

/-! ## What the settings hold -/

namespace Checked

variable {α β : Type}

theorem and_eq_good {f : Checked (α → β)} {x : Checked α} {y : β} (h : f.and x = .good y) :
    ∃ g a, f = .good g ∧ x = .good a ∧ y = g a := by
  cases f with
  | good g =>
    cases x with
    | good a =>
      injection h with h
      exact ⟨g, a, rfl, rfl, h.symm⟩
    | bad ps => cases h
  | bad ps => cases x <;> cases h

theorem under_eq_good {x : Checked α} {name : Text} {a : α} (h : x.under name = .good a) :
    x = .good a := by
  cases x with
  | good b => exact h
  | bad ps => cases h

end Checked

namespace TailSettings

variable {members : List (Text × Json)} {env : Environment} {s : TailSettings}

theorem load_ok (h : load members env = .ok s) :
    Checked.optional default.pollSeconds Validation.positive
        (Settings.given? (Settings.canonical names members) env group "poll_interval_seconds") =
      .good s.pollSeconds ∧
    Checked.optional default.maxFailures Validation.count
        (Settings.given? (Settings.canonical names members) env group "max_consecutive_failures") =
      .good s.maxFailures := by
  unfold load at h
  split at h
  · next s' hcheck =>
    obtain rfl := Except.ok.inj h
    obtain ⟨g, u, hg, -, rfl⟩ := Checked.and_eq_good hcheck
    obtain ⟨g', limit, hg', hlimit, rfl⟩ := Checked.and_eq_good hg
    obtain ⟨g'', poll, hg'', hpoll, rfl⟩ := Checked.and_eq_good hg'
    injection hg'' with hg''
    subst hg''
    exact ⟨Checked.under_eq_good hpoll, Checked.under_eq_good hlimit⟩
  · cases h

end TailSettings

namespace PathSettings

variable {members : List (Text × Json)} {env : Environment} {s : PathSettings}

theorem load_ok (h : load members env = .ok s) :
    Checked.optional default.terminationLog Validation.path
        (Settings.given? (Settings.canonical names members) env group "termination_log") =
      .good s.terminationLog ∧
    Checked.optional default.mqsIni Validation.path
        (Settings.given? (Settings.canonical names members) env group "mqs_ini") =
      .good s.mqsIni := by
  unfold load at h
  dsimp only at h
  split at h
  · cases h
  · split at h
    · next s' hcheck =>
      obtain rfl := Except.ok.inj h
      obtain ⟨_, -, h₁, -, rfl⟩ := Checked.and_eq_good hcheck
      obtain ⟨_, -, h₂, -, rfl⟩ := Checked.and_eq_good h₁
      obtain ⟨_, -, h₃, -, rfl⟩ := Checked.and_eq_good h₂
      obtain ⟨_, -, h₄, -, rfl⟩ := Checked.and_eq_good h₃
      obtain ⟨_, -, h₅, -, rfl⟩ := Checked.and_eq_good h₄
      obtain ⟨_, log, h₆, hlog, rfl⟩ := Checked.and_eq_good h₅
      obtain ⟨_, -, h₇, -, rfl⟩ := Checked.and_eq_good h₆
      obtain ⟨_, ini, h₈, hini, rfl⟩ := Checked.and_eq_good h₇
      obtain ⟨_, -, h₉, -, rfl⟩ := Checked.and_eq_good h₈
      obtain ⟨_, -, h₁₀, -, rfl⟩ := Checked.and_eq_good h₉
      obtain ⟨_, -, h₁₁, -, rfl⟩ := Checked.and_eq_good h₁₀
      injection h₁₁ with hbuild
      subst hbuild
      exact ⟨Checked.under_eq_good hlog, Checked.under_eq_good hini⟩
    · cases h

end PathSettings

namespace Settings

variable {env env' : Environment} {s : Settings} {f : FilterSettings} {name : Text}

/-- The members that a variable holds for a group of settings. -/
def heldMembers (value : Option Text) : List (Text × Json) :=
  match value.map Json.parse with
  | some (.ok (.object ms)) => ms
  | _ => []

/-- The members that the value of a group has. -/
def membersOf : Option Json → List (Text × Json)
  | some (.object ms) => ms
  | _ => []

theorem membersOf_of_structured {value : Option Text} {field : Text} {v : Option Json}
    (h : PathSettings.structured? value field = .ok v) : membersOf v = heldMembers value := by
  unfold PathSettings.structured? at h
  unfold heldMembers
  cases value with
  | none =>
    obtain rfl := Except.ok.inj h
    rfl
  | some t =>
    rw [Option.map_some]
    dsimp only at h
    split at h
    · next hnull =>
      obtain rfl := Except.ok.inj h
      rw [hnull]
      rfl
    · next read hnull hread =>
      obtain rfl := Except.ok.inj h
      rw [hread]
      cases read <;> rfl
    · cases h
    · cases h

/-- Settings of a group that are accepted are those of the members. -/
theorem load_of_grouped {α : Type} {load : List (Text × Json) → Except Failure α} {group : Text}
    {v : Option Json}
    {x : α} (h : grouped group load v = .ok (.good x)) : load (membersOf v) = .ok x := by
  unfold grouped at h
  split at h
  · split at h
    · next s hs =>
      injection h with h
      injection h with h
      exact hs.trans (congrArg Except.ok h)
    · cases h
  · split at h
    · next s hs =>
      injection h with h
      injection h with h
      exact hs.trans (congrArg Except.ok h)
    · cases h
    · cases h
    · cases h
  · cases h

theorem grouped_good {α : Type} {load : List (Text × Json) → Except Failure α} {value : Option Text}
    {field group : Text} {v : Option Json} {x : α}
    (hv : PathSettings.structured? value field = .ok v)
    (h : grouped group load v = .ok (.good x)) : load (heldMembers value) = .ok x := by
  rw [← membersOf_of_structured hv]
  exact load_of_grouped h

/-- The settings an environment holds are what each of them is given there. -/
theorem load_ok (h : load env = .ok s) :
    TailSettings.load (heldMembers (env.find? "TAIL")) env = .ok s.tail ∧
      PathSettings.load (heldMembers (env.find? "PATHS")) env = .ok s.paths ∧
      s.consoleFormat = normalised ((env.find? "MQ_LOGGING_CONSOLE_FORMAT").getD []) ∧
      s.debug = (env.find? "DEBUG").getD [] ∧
      s.consoleSource = normalised ((env.find? "MQ_LOGGING_CONSOLE_SOURCE").getD []) ∧
      s.qmgrName = (env.find? "MQ_QMGR_NAME").getD [] ∧
      s.connauthUseHtp = (env.find? "MQ_CONNAUTH_USE_HTP").getD [] ∧
      s.embeddedWebServer = (env.find? "MQ_ENABLE_EMBEDDED_WEB_SERVER").getD [] := by
  unfold load at h
  dsimp only at h
  split at h
  · cases h
  · cases h
  · next tail paths htail hpaths =>
    split at h
    · cases h
    · next checkedTail hgroup =>
      split at h
      · cases h
      · next checkedPaths hgroup' =>
        split at h
        · next s' hs =>
          obtain rfl := Except.ok.inj h
          obtain ⟨g, places, hg, hplaces, hbuilt⟩ := Checked.and_eq_good hs
          obtain ⟨g', following, hg', hfollowing, hbuilt'⟩ := Checked.and_eq_good hg
          injection hg' with hg'
          subst hg' hbuilt' hbuilt hplaces hfollowing
          exact ⟨grouped_good htail hgroup, grouped_good hpaths hgroup', rfl, rfl,
            rfl, rfl, rfl, rfl⟩
        · cases h

/-- What the settings and the filters hold for a variable is what an environment gives for it.  The
settings of a group may also be given by the variable of the whole group. -/
structure Shows (s : Settings) (f : FilterSettings) (env : Environment) (name : Text) : Prop where
  consoleFormat : name = "MQ_LOGGING_CONSOLE_FORMAT" →
    s.consoleFormat = normalised ((env.find? name).getD [])
  debug : name = "DEBUG" → s.debug = (env.find? name).getD []
  consoleSource : name = "MQ_LOGGING_CONSOLE_SOURCE" →
    s.consoleSource = normalised ((env.find? name).getD []) ∧
    f.consoleSource = (env.find? name).getD []
  excludeIds : name = "MQ_LOGGING_CONSOLE_EXCLUDE_ID" → f.excludeIds = (env.find? name).getD []
  multiInstance : name = "MQ_MULTI_INSTANCE" → f.multiInstance = (env.find? name).getD []
  qmgrName : name = "MQ_QMGR_NAME" → s.qmgrName = (env.find? name).getD []
  connauthUseHtp : name = "MQ_CONNAUTH_USE_HTP" → s.connauthUseHtp = (env.find? name).getD []
  embeddedWebServer : name = "MQ_ENABLE_EMBEDDED_WEB_SERVER" →
    s.embeddedWebServer = (env.find? name).getD []
  pollSeconds : name = "MQLOGMIRROR_TAIL_POLL_INTERVAL_SECONDS" →
    Checked.optional TailSettings.default.pollSeconds Validation.positive
      (given? (canonical TailSettings.names (heldMembers (env.find? "TAIL"))) env TailSettings.group
        "poll_interval_seconds") = .good s.tail.pollSeconds
  maxFailures : name = "MQLOGMIRROR_TAIL_MAX_CONSECUTIVE_FAILURES" →
    Checked.optional TailSettings.default.maxFailures Validation.count
      (given? (canonical TailSettings.names (heldMembers (env.find? "TAIL"))) env TailSettings.group
        "max_consecutive_failures") = .good s.tail.maxFailures
  terminationLog : name = "MQLOGMIRROR_PATHS_TERMINATION_LOG" →
    Checked.optional PathSettings.default.terminationLog Validation.path
      (given? (canonical PathSettings.names (heldMembers (env.find? "PATHS"))) env
        PathSettings.group "termination_log") = .good s.paths.terminationLog
  mqsIni : name = "MQLOGMIRROR_PATHS_MQS_INI" →
    Checked.optional PathSettings.default.mqsIni Validation.path
      (given? (canonical PathSettings.names (heldMembers (env.find? "PATHS"))) env
        PathSettings.group "mqs_ini") = .good s.paths.mqsIni

theorem load_shows (h : load env = .ok s) (name : Text) :
    s.Shows (FilterSettings.load env) env name := by
  obtain ⟨htail, hpaths, hformat, hdebug, hsource, hqmgr, hhtp, hweb⟩ := load_ok h
  obtain ⟨hpoll, hfailures⟩ := TailSettings.load_ok htail
  obtain ⟨hlog, hini⟩ := PathSettings.load_ok hpaths
  constructor
  · rintro rfl; exact hformat
  · rintro rfl; exact hdebug
  · rintro rfl; exact ⟨hsource, rfl⟩
  · rintro rfl; rfl
  · rintro rfl; rfl
  · rintro rfl; exact hqmgr
  · rintro rfl; exact hhtp
  · rintro rfl; exact hweb
  · exact fun _ => hpoll
  · exact fun _ => hfailures
  · exact fun _ => hlog
  · exact fun _ => hini

end Settings

/-! ## Which variables settings look at -/

namespace Text

/-- A text of ASCII without capital letters. -/
def IsLower (t : Text) : Prop := t.all fun c => c.val < 128 && !(65 ≤ c.val && c.val ≤ 90)

/-- Such a text keeps its form in lower case, whatever stands before it. -/
theorem lowerFrom_of_isLower {t : Text} (h : IsLower t) (before : Text) :
    lowerFrom before t = t := by
  refine lowerFrom_of_isLowered (fun c hc => ?_) before
  have hplain := List.all_eq_true.1 h c hc
  simp only [Bool.and_eq_true, Bool.not_eq_true', Bool.and_eq_false_iff, decide_eq_true_eq,
    decide_eq_false_iff_not] at hplain
  have hcapital : ¬ (65 ≤ c.val ∧ c.val ≤ 90) := by omega
  rw [IsLowered, lowerPoint, if_pos hplain.1, if_neg hcapital]

/-- At the end of a text it stands at the end of its lower case. -/
theorem suffix_lower_append {t : Text} (h : IsLower t) (lead : Text) : t <:+ (lead ++ t).lower := by
  have hfrom : ∀ before, t <:+ lowerFrom before (lead ++ t) := by
    induction lead with
    | nil =>
      intro before
      exact ⟨[], (lowerFrom_of_isLower h before).symm⟩
    | cons c lead ih =>
      intro before
      exact (ih (c :: before)).trans (List.suffix_append _ _)
  exact hfrom []

end Text

namespace SettingsFile

open Settings

variable {m : Mapping} {env env' : Environment} {s : Settings} {f : FilterSettings}

/-- The settings in groups that a file may give, with their variables. -/
def groupVariables : List (Text × Text) := [
  ("poll_interval_seconds", "MQLOGMIRROR_TAIL_POLL_INTERVAL_SECONDS"),
  ("max_consecutive_failures", "MQLOGMIRROR_TAIL_MAX_CONSECUTIVE_FAILURES"),
  ("termination_log", "MQLOGMIRROR_PATHS_TERMINATION_LOG"),
  ("mqs_ini", "MQLOGMIRROR_PATHS_MQS_INI")]

theorem isLower_groupVariables : ∀ g ∈ groupVariables, Text.IsLower g.1 := by
  unfold Text.IsLower
  decide

theorem eq_of_suffix : ∀ g ∈ groupVariables, ∀ m ∈ mappings, g.1 <:+ m.variableName.lower →
    m.variableName = g.2 := by decide

/-- Whatever the variables of a group begin with, the name of a setting at their end tells them
apart. -/
theorem owns_groupVariable {g : Text × Text} (hg : g ∈ groupVariables) (hm : m ∈ mappings)
    (hname : m.variableName = g.2) (lead : Text) : m.Owns (lead ++ g.1) := by
  intro m' hm' heq
  have hsuffix : g.1 <:+ m'.variableName.lower := by
    rw [← heq]
    exact Text.suffix_lower_append (isLower_groupVariables g hg) lead
  have hsame : m'.variableName = m.variableName :=
    (eq_of_suffix g hg m' hm' hsuffix).trans hname.symm
  exact owns_variableName hm m' hm' (congrArg Text.lower hsame.symm)

/-- The variable of a whole group is none that a file may fill. -/
theorem owns_group : ∀ m ∈ mappings, m.Owns "TAIL" ∧ m.Owns "PATHS" := by
  have hnone : ∀ m' ∈ mappings, ("TAIL" : Text).lower ≠ m'.variableName.lower ∧
      ("PATHS" : Text).lower ≠ m'.variableName.lower := by decide
  exact fun m _ =>
    ⟨fun m' hm' heq => absurd heq (hnone m' hm').1, fun m' hm' heq => absurd heq (hnone m' hm').2⟩

theorem given?_congr {g : Text × Text} {members : List (Text × Json)} {group : Text}
    (hm : m ∈ mappings)
    (h : ∀ name, m.Owns name → env.Agrees env' name) (hg : g ∈ groupVariables)
    (hname : m.variableName = g.2) :
    given? members env group g.1 = given? members env' group g.1 := by
  have hagrees := (h _ (owns_groupVariable hg hm hname (groupOf members group))).filter
    fun v => counts members v.2
  unfold given? found?
  dsimp only
  rw [hagrees.find?_eq, hagrees.get?_eq]

/-- What is shown for a variable depends on what is looked up under its name. -/
theorem shows_congr (hm : m ∈ mappings) (h : ∀ name, m.Owns name → env.Agrees env' name)
    (hs : s.Shows f env' m.variableName) : s.Shows f env m.variableName := by
  have hfind := (h _ (owns_variableName hm)).find?_eq
  have htail := (h _ (owns_group m hm).1).find?_eq
  have hpaths := (h _ (owns_group m hm).2).find?_eq
  exact {
    consoleFormat := fun hn => hfind ▸ hs.consoleFormat hn
    debug := fun hn => hfind ▸ hs.debug hn
    consoleSource := fun hn => hfind ▸ hs.consoleSource hn
    excludeIds := fun hn => hfind ▸ hs.excludeIds hn
    multiInstance := fun hn => hfind ▸ hs.multiInstance hn
    qmgrName := fun hn => hfind ▸ hs.qmgrName hn
    connauthUseHtp := fun hn => hfind ▸ hs.connauthUseHtp hn
    embeddedWebServer := fun hn => hfind ▸ hs.embeddedWebServer hn
    pollSeconds := fun hn => by
      rw [htail, given?_congr hm h (g := ("poll_interval_seconds", _)) (by decide) hn]
      exact hs.pollSeconds hn
    maxFailures := fun hn => by
      rw [htail, given?_congr hm h (g := ("max_consecutive_failures", _)) (by decide) hn]
      exact hs.maxFailures hn
    terminationLog := fun hn => by
      rw [hpaths, given?_congr hm h (g := ("termination_log", _)) (by decide) hn]
      exact hs.terminationLog hn
    mqsIni := fun hn => by
      rw [hpaths, given?_congr hm h (g := ("mqs_ini", _)) (by decide) hn]
      exact hs.mqsIni hn }

end SettingsFile

/-! ## The settings at the start -/

namespace Settings

/-- The settings at the start show for each variable of the settings file what the environment gives
for it if the variable is set under its exact name, or if the file has no value for it.  If it is
not set under its exact name and the file has a value, that value is shown, whatever other spellings
of the name are set. -/
theorem boot_overriding {d : Disk} {env env' : Environment} {s : Settings}
    (h : boot d env = (env', .ok s)) :
    ∃ data, SettingsFile.load d env = .ok data ∧ ∀ m ∈ SettingsFile.mappings,
      ((env.get? m.variableName).isSome ∨ (∀ t, ¬ m.Gives data t) →
        s.Shows (FilterSettings.load env') env m.variableName) ∧
      ∀ t, env.get? m.variableName = none → m.Gives data t →
        s.Shows (FilterSettings.load env') (env.set m.variableName t) m.variableName ∧
          (env.set m.variableName t).find? m.variableName = some (Text.settled t) := by
  unfold boot at h
  split at h
  · cases congrArg Prod.snd h
  · next data hload =>
    refine ⟨data, hload, fun m hm => ?_⟩
    split at h
    · cases congrArg Prod.snd h
    · next filled hfill =>
      obtain rfl := congrArg Prod.fst h
      have hshows := load_shows (congrArg Prod.snd h) m.variableName
      have halone (name : Text) (hname : m.Owns name) :=
        SettingsFile.fill_alone hload hfill hm hname
      refine ⟨fun hkept => ?_, fun t hnone hgives => ⟨?_, ?_⟩⟩
      · exact SettingsFile.shows_congr hm (fun name hname => (halone name hname).1 hkept) hshows
      · exact SettingsFile.shows_congr hm
          (fun name hname => (halone name hname).2 t hnone hgives) hshows
      · exact Environment.find?_set (SettingsFile.settled_variableName m hm) hnone

/-! ### A file that names a queue manager -/

/-- The lines `qmgr:` and `  name: QM2`. -/
def managerFile : Bytes :=
  [113, 109, 103, 114, 58, 10, 32, 32, 110, 97, 109, 101, 58, 32, 81, 77, 50, 10]

/-- A disk with that settings file. -/
def managerDisk : Disk where
  tree := [(Disk.home ++ [("mqlogmirror.yaml" : Text)], .file 2)]
  files := [(2, ⟨managerFile, 1, 0o644⟩)]
  next := 3

theorem load_managerDisk {env : Environment} (h : env.get? SettingsFile.pathVariable = none) :
    SettingsFile.load managerDisk env = (Yaml.parse (Feed.ofOctets managerFile)).map fun data =>
      if data.isVoid data.root then .empty else data := by
  have hname : unnameable? ("mqlogmirror.yaml" : Text) = none := by decide +kernel
  have hplain : Disk.Plain "mqlogmirror.yaml" := by decide +kernel
  have hfile : managerDisk.leafAt (Disk.home ++ [("mqlogmirror.yaml" : Text)]) = some (.file 2) :=
    rfl
  have hthere : managerDisk.isThere "mqlogmirror.yaml" = true := by
    rw [hplain.isThere_eq hname (by simp [hfile]), hfile]
    rfl
  have hread : managerDisk.read "mqlogmirror.yaml" = .ok managerFile :=
    hplain.read_eq hname rfl hfile
  have hfind : SettingsFile.find? managerDisk env = some ("mqlogmirror.yaml" : Text) := by
    unfold SettingsFile.find? SettingsFile.candidates
    rw [h]
    exact List.find?_cons_of_pos hthere
  unfold SettingsFile.load
  rw [hfind]
  exact SettingsFile.read_eq hthere hread

/-- A variable that is set under its exact name is not changed by the file. -/
theorem boot_exactName : ∃ env' s,
    boot managerDisk ⟨[("MQ_QMGR_NAME", "QM1")]⟩ = (env', .ok s) ∧ s.qmgrName = "QM1" := by
  have hloads : (boot managerDisk ⟨[("MQ_QMGR_NAME", "QM1")]⟩).2.toBool = true := by
    unfold boot
    rw [load_managerDisk (by decide)]
    decide +kernel
  cases h : boot managerDisk ⟨[("MQ_QMGR_NAME", "QM1")]⟩ with
  | mk env' loaded =>
    rw [h] at hloads
    cases loaded with
    | error f => cases hloads
    | ok s =>
      obtain ⟨data, -, hm⟩ := boot_overriding h
      have hshows :=
        (hm ⟨"qmgr", "name", "MQ_QMGR_NAME"⟩ (by simp [SettingsFile.mappings])).1 (.inl (by decide))
      refine ⟨env', s, rfl, (hshows.qmgrName rfl).trans ?_⟩
      decide

/-- One that is set under another spelling is what settings are given, until the file overrides
it. -/
theorem boot_otherSpelling : ∃ env' s,
    boot managerDisk ⟨[("mq_qmgr_name", "QM1")]⟩ = (env', .ok s) ∧
      Environment.find? ⟨[("mq_qmgr_name", "QM1")]⟩ "MQ_QMGR_NAME" = some "QM1" ∧
      s.qmgrName = "QM2" := by
  have hloads : (boot managerDisk ⟨[("mq_qmgr_name", "QM1")]⟩).2.toOption.map Settings.qmgrName =
      some "QM2" := by
    unfold boot
    rw [load_managerDisk (by decide)]
    decide +kernel
  cases h : boot managerDisk ⟨[("mq_qmgr_name", "QM1")]⟩ with
  | mk env' loaded =>
    rw [h] at hloads
    cases loaded with
    | error f => cases hloads
    | ok s => exact ⟨env', s, rfl, by decide, Option.some.inj hloads⟩

end Settings

end LogRelay
