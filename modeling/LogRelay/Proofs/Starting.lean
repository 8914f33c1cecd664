import LogRelay.Proofs.Shutdown
import LogRelay.Proofs.Text

/-!
# How the program starts

A start reads the settings, and then checks the name of the process, the console format, the
selector and the list of queue managers.  A format that is not known, a selector that names anything
but categories and a queue manager that is not listed are rejected (`Program.Rejects`): they are
recorded, and the program ends with status 1 before anything is followed.

Not every failure of a start is of this kind.  Settings that cannot be read, a process without a
name and a list that is not text leave the start without a record (`Program.Unrecorded`), as does
what breaks the recording off.  `Program.start_outcome` says that the start goes one of these ways
or follows the sources, and which.
-/

namespace LogRelay

/-! ## What is looked at -/

theorem Validation.filled_cases (t : Text) :
    (t ≠ [] ∧ (∀ c ∈ t, ¬ c.isSurrogate) ∧ filled t = .good t) ∨
      ((t = [] ∨ ∃ c ∈ t, c.isSurrogate) ∧ ∃ ps, filled t = .bad ps) := by
  unfold filled characters
  by_cases hsurrogate : t.any CodePoint.isSurrogate
  · rw [if_pos hsurrogate]
    exact .inr ⟨.inr (List.any_eq_true.1 hsurrogate), _, rfl⟩
  · rw [if_neg hsurrogate]
    cases t with
    | nil => exact .inr ⟨.inl rfl, _, rfl⟩
    | cons c t =>
      refine .inl ⟨List.cons_ne_nil c t, fun c' hc' hs => ?_, rfl⟩
      exact hsurrogate (List.any_eq_true.2 ⟨c', hc', hs⟩)

namespace Options

/-- The process has a name that is made of characters. -/
def Named (o : Options) : Prop := o.name ≠ [] ∧ ∀ c ∈ o.name, ¬ c.isSurrogate

/-- A console format that is given is known. -/
def FormatKnown (o : Options) : Prop :=
  ∀ name, o.format = some name → (Format.ofName? (Settings.normalised name)).isSome

/-- The queue manager whose log is followed, by name; the empty name stands for none. -/
def managerName (o : Options) (s : Settings) : Text := o.qmgr.getD s.qmgrName

/-- How the process log is written: a format that is given counts before that of the settings. -/
def log (o : Options) (s : Settings) : LogSettings :=
  ⟨(o.format.bind fun name => Format.ofName? (Settings.normalised name)).getD s.format,
    s.isDebug, o.name⟩

variable {o : Options} {s : Settings} {ps : List Problem}

theorem filled_of_named (h : o.Named) : Validation.filled o.name = .good o.name := by
  obtain ⟨-, -, hgood⟩ | ⟨hempty | ⟨c, hc, hs⟩, -⟩ := Validation.filled_cases o.name
  · exact hgood
  · exact absurd hempty h.1
  · exact absurd hs (h.2 c hc)

theorem named_or_refused (o : Options) : o.Named ∨ ∃ ps, Validation.filled o.name = .bad ps := by
  obtain ⟨hne, hs, -⟩ | ⟨-, hbad⟩ := Validation.filled_cases o.name
  · exact .inl ⟨hne, hs⟩
  · exact .inr hbad

theorem logIn_of_named (h : o.Named) (f : Format) :
    s.logIn f o.name = .ok ⟨f, s.isDebug, o.name⟩ := by
  unfold Settings.logIn
  rw [filled_of_named h]
  rfl

theorem logIn_of_refused (h : Validation.filled o.name = .bad ps) (f : Format) :
    s.logIn f o.name = .error (.invalid (ps.map (Problem.under "process_name"))) := by
  unfold Settings.logIn
  rw [h]
  rfl

theorem logSettings_of_known (h : o.FormatKnown) :
    s.logSettings o.name o.format = s.logIn (o.log s).format o.name := by
  unfold Settings.logSettings log
  cases hformat : o.format with
  | none => rfl
  | some name =>
    obtain ⟨f, hf⟩ := Option.isSome_iff_exists.1 (h name hformat)
    simp [hf]

theorem logSettings_of_unknown {name : Text} (given : o.format = some name)
    (unknown : Format.ofName? (Settings.normalised name) = none) :
    s.logSettings o.name o.format =
      .error (.configuration ("Invalid value for LOG_FORMAT: " ++ name) []) := by
  unfold Settings.logSettings
  rw [given]
  dsimp only
  rw [unknown]

theorem known_or_unknown (o : Options) :
    o.FormatKnown ∨ ∃ name, o.format = some name ∧
    Format.ofName? (Settings.normalised name) = none := by
  by_cases h : o.FormatKnown
  · exact .inl h
  · unfold FormatKnown at h
    push Not at h
    obtain ⟨name, given, hunknown⟩ := h
    exact .inr ⟨name, given, by simpa using hunknown⟩

end Options

namespace QueueManager

/-- A name is found in the list at a path, with an error directory; the empty name is not looked
up. -/
inductive Found (d : Disk) (ini : Path) : Text → Option Path → Prop
  | none : Found d ini [] none
  | listed {name t : Text} {q : QueueManager} (named : name ≠ [])
      (list : d.readText ini.text = .ok t)
      (found : (parse t).find? (·.name == name) = some q) : Found d ini name (some q.errorDirectory)

/-- A name is not in the list.  Nothing is in a list that the system does not let read. -/
inductive Missing (d : Disk) (ini : Path) (name : Text) : List Notice → Prop
  | unlisted {t : Text} (named : name ≠ []) (list : d.readText ini.text = .ok t)
      (absent : ∀ q ∈ parse t, q.name ≠ name) : Missing d ini name []
  | unreadable {e : IoError} (named : name ≠ []) (refused : d.readText ini.text = .error (.io e)) :
      Missing d ini name [.managersUnreadable ini.text e.message]

/-- The list cannot be named, or is not text. -/
inductive Unclear (d : Disk) (ini : Path) (name : Text) : Failure → Prop
  | path {why : Unnameable} (named : name ≠ []) (unnameable : unnameable? ini.text = some why) :
      Unclear d ini name why.failure
  | text {bytes : Bytes} {e : Utf8.DecodeError} (named : name ≠ [])
      (read : d.read ini.text = .ok bytes)
      (undecodable : Utf8.decodeStrict bytes = .error e) : Unclear d ini name (.undecodable e)

variable {d : Disk} {ini : Path} {name : Text} {ns : List Notice} {f : Failure}

theorem errorDirectoryOf_of_ne_nil (h : name ≠ []) : errorDirectoryOf d name ini =
    match find d name ini with
    | (ns, .ok q) => (ns, .ok (some q.errorDirectory))
    | (ns, .error f) => (ns, .error f) := by
  unfold errorDirectoryOf
  exact if_neg (by simpa using h)

theorem Found.errorDirectoryOf {dir : Option Path} (h : Found d ini name dir) :
    errorDirectoryOf d name ini = ([], .ok dir) := by
  cases h with
  | none => rfl
  | listed named list found =>
    rw [errorDirectoryOf_of_ne_nil named, find, list]
    dsimp only
    rw [found]

theorem Missing.errorDirectoryOf (h : Missing d ini name ns) :
    errorDirectoryOf d name ini = (ns, .error (.managerNotFound name ini.text)) := by
  cases h with
  | unlisted named list absent =>
    have hfind : (parse _).find? (·.name == name) = none :=
      List.find?_eq_none.2 fun q hq => by simpa using absent q hq
    rw [errorDirectoryOf_of_ne_nil named, find, list]
    dsimp only
    rw [hfind]
  | unreadable named refused =>
    rw [errorDirectoryOf_of_ne_nil named, find, refused]

theorem Unclear.errorDirectoryOf (h : Unclear d ini name f) :
    errorDirectoryOf d name ini = ([], .error f) := by
  cases h with
  | @path why named unnameable =>
    rw [errorDirectoryOf_of_ne_nil named, find, Disk.readText_of_unnameable unnameable]
    cases why with
    | embeddedNul => rfl
    | surrogates e => rfl
  | text named read undecodable =>
    rw [errorDirectoryOf_of_ne_nil named, find, Disk.readText_of_undecodable read undecodable]

/-- Nothing else can come of looking up a name. -/
theorem found_or_missing_or_unclear (d : Disk) (ini : Path) (name : Text) :
    (∃ dir, Found d ini name dir) ∨ (∃ ns, Missing d ini name ns) ∨ ∃ f, Unclear d ini name f := by
  by_cases named : name = []
  · subst named
    exact .inl ⟨_, .none⟩
  cases hlist : d.readText ini.text with
  | ok t =>
    cases hfind : (parse t).find? (·.name == name) with
    | some q => exact .inl ⟨_, .listed named hlist hfind⟩
    | none =>
      refine .inr (.inl ⟨_, .unlisted named hlist fun q hq => ?_⟩)
      simpa using List.find?_eq_none.1 hfind q hq
  | error f =>
    obtain ⟨e, rfl⟩ | ⟨why, hwhy, rfl⟩ | ⟨bytes, e, hread, he, rfl⟩ := Disk.readText_failure hlist
    · exact .inr (.inl ⟨_, .unreadable named hlist⟩)
    · exact .inr (.inr ⟨_, .path named hwhy⟩)
    · exact .inr (.inr ⟨_, .text named hread he⟩)

end QueueManager

/-! ## How a start goes -/

/-- Where the fatal errors of a program with some settings end. -/
def Settings.terminator (s : Settings) : Terminator := { paths := s.paths, debug := s.isDebug }

namespace Program

/-- The settings are read, and the process has a name. -/
structure Loads (o : Options) (a : Ambience) (scene : Scene) (env : Environment)
    (s : Settings) : Prop where
  loaded : Settings.boot scene.disk a.environment = (env, .ok s)
  named : o.Named

/-- The console format is known, and the selector names categories only. -/
structure Passes (o : Options) (s : Settings) : Prop where
  known : o.FormatKnown
  valid : Settings.isSelectorValid s.consoleSource

/-- What a start rejects, with the message about it and the notices that are given before.  Of
several errors the first one counts. -/
inductive Rejects (o : Options) (s : Settings) (env : Environment) (d : Disk) :
    Text → List Notice → Prop
  | format {name : Text} (given : o.format = some name)
      (unknown : Format.ofName? (Settings.normalised name) = none) :
      Rejects o s env d ("Invalid value for LOG_FORMAT: " ++ name) []
  | selector (known : o.FormatKnown) (invalid : ¬ Settings.isSelectorValid s.consoleSource) :
      Rejects o s env d ("Invalid value for MQ_LOGGING_CONSOLE_SOURCE: " ++ s.consoleSource) []
  | manager {ns : List Notice} (passes : Passes o s)
      (missing : QueueManager.Missing d s.paths.mqsIni (o.managerName s) ns) :
      Rejects o s env d ("Error mirroring queue manager error logs: " ++
        (Failure.managerNotFound (o.managerName s) s.paths.mqsIni.text).message)
        (Settings.replacedNotices env ++ ns)

/-- A start ends with a record of what it rejects, which is its first fatal error. -/
def Records (o : Options) (a : Ambience) (scene after : Scene) : Prop :=
  ∃ env s message ns t, Loads o a scene env s ∧ Rejects o s env scene.disk message ns ∧
    record s.terminator message { scene with notices := scene.notices ++ ns } =
      (t, after, .ok failureStatus) ∧
    t.message? = some message

/-- The failures that leave a start without a record. -/
inductive Unrecorded (o : Options) (a : Ambience) (scene : Scene) : Failure → Prop
  | settings {env : Environment} {f : Failure}
      (failed : Settings.boot scene.disk a.environment = (env, .error f)) : Unrecorded o a scene f
  | name {env : Environment} {s : Settings} {ps : List Problem}
      (loaded : Settings.boot scene.disk a.environment = (env, .ok s))
      (refused : Validation.filled o.name = .bad ps) :
      Unrecorded o a scene (.invalid (ps.map (Problem.under "process_name")))
  | list {env : Environment} {s : Settings} {f : Failure} (loads : Loads o a scene env s)
      (passes : Passes o s)
      (unclear : QueueManager.Unclear scene.disk s.paths.mqsIni (o.managerName s) f) :
      Unrecorded o a scene f
  | recording {env : Environment} {s : Settings} {message : Text} {ns : List Notice} {f : Failure}
      (loads : Loads o a scene env s) (rejected : Rejects o s env scene.disk message ns)
      (broken : (record s.terminator message { scene with notices := scene.notices ++ ns }).2.2 =
        .error f) :
      Unrecorded o a scene f

/-- A start has nothing to reject. -/
structure Follows (o : Options) (a : Ambience) (scene : Scene) (env : Environment) (s : Settings)
    (dir : Option Path) : Prop extends Loads o a scene env s, Passes o s where
  found : QueueManager.Found scene.disk s.paths.mqsIni (o.managerName s) dir

/-- The settings are read, the process has a name, the list can be looked at, and nothing breaks a
recording off. -/
structure Clear (o : Options) (a : Ambience) (scene : Scene) (env : Environment)
    (s : Settings) : Prop extends Loads o a scene env s where
  list : ∀ f, ¬ QueueManager.Unclear scene.disk s.paths.mqsIni (o.managerName s) f
  recording : ∀ message ns f, Rejects o s env scene.disk message ns →
    ¬ s.terminator.BreaksOff message scene.runner f

variable {o : Options} {a : Ambience} {s : Settings} {env : Environment}
  {refusals : Refusals} {scene : Scene}
  {message : Text} {ns : List Notice} {f : Failure} {ps : List Problem} {dir : Option Path}

theorem start_of_loaded (h : Settings.boot scene.disk a.environment = (env, .ok s)) :
    start o a refusals scene = startChecked o { a with environment := env } s refusals scene := by
  unfold start
  rw [h]

theorem start_of_not_loaded (h : Settings.boot scene.disk a.environment = (env, .error f)) :
    start o a refusals scene = { environment := env, log := none, scene, start := .failed f } := by
  unfold start
  rw [h]

theorem startChecked_of_refused (h : Validation.filled o.name = .bad ps) :
    startChecked o a s refusals scene =
      let f : Failure := .invalid (ps.map (Problem.under "process_name"))
      { environment := a.environment, log := none, scene, start := .failed f } := by
  have hlog := Options.logIn_of_refused (s := s) h
  unfold startChecked
  obtain known | ⟨name, given, unknown⟩ := o.known_or_unknown
  · rw [Options.logSettings_of_known known, hlog]
  · rw [Options.logSettings_of_unknown given unknown]
    dsimp only
    rw [hlog]

/-- With a format that is known, the selector is checked next. -/
theorem startChecked_of_known (named : o.Named) (known : o.FormatKnown) :
    startChecked o a s refusals scene =
      match s.validate with
      | .ok _ => startSources o a (o.log s) s.terminator s refusals scene
      | .error f =>
        let result := abort s.terminator f.message scene
        { environment := a.environment, log := some (o.log s), scene := result.1,
          start := result.2 } := by
  have hlog : s.logSettings o.name o.format = .ok (o.log s) := by
    rw [Options.logSettings_of_known known, Options.logIn_of_named named]
    rfl
  unfold startChecked
  rw [hlog]
  rfl

theorem startChecked_of_passes (named : o.Named) (h : Passes o s) :
    startChecked o a s refusals scene =
      startSources o a (o.log s) s.terminator s refusals scene := by
  rw [startChecked_of_known named h.known, Settings.validate, if_pos h.valid]

/-- What is rejected is recorded, unless that is broken off. -/
theorem startChecked_of_rejects (named : o.Named)
    (h : Rejects o s a.environment scene.disk message ns) :
    ∃ log, startChecked o a s refusals scene =
      let result := abort s.terminator message { scene with notices := scene.notices ++ ns }
      { environment := a.environment, log := some log, scene := result.1, start := result.2 } := by
  cases h with
  | @format name given unknown =>
    refine ⟨⟨.basic, s.isDebug, o.name⟩, ?_⟩
    unfold startChecked
    rw [Options.logSettings_of_unknown given unknown]
    dsimp only
    rw [Options.logIn_of_named named, List.append_nil]
    rfl
  | selector known invalid =>
    refine ⟨o.log s, ?_⟩
    rw [startChecked_of_known named known, Settings.validate, if_neg invalid, List.append_nil]
    rfl
  | manager passes missing =>
    refine ⟨o.log s, ?_⟩
    rw [startChecked_of_passes named passes]
    have hmissing := missing.errorDirectoryOf
    unfold Options.managerName at hmissing
    unfold startSources
    dsimp only
    rw [hmissing, List.append_assoc]
    rfl

theorem startChecked_of_unclear (named : o.Named) (passes : Passes o s)
    (h : QueueManager.Unclear scene.disk s.paths.mqsIni (o.managerName s) f) :
    (startChecked o a s refusals scene).start = .failed f ∧
    (startChecked o a s refusals scene).output = [] := by
  have hunclear := h.errorDirectoryOf
  unfold Options.managerName at hunclear
  rw [startChecked_of_passes named passes]
  unfold startSources
  dsimp only
  rw [hunclear]
  cases h with
  | @path why _ _ =>
    cases why with
    | embeddedNul => exact ⟨rfl, rfl⟩
    | surrogates e => exact ⟨rfl, rfl⟩
  | text _ _ _ => exact ⟨rfl, rfl⟩

theorem startChecked_of_found (named : o.Named) (passes : Passes o s)
    (h : QueueManager.Found scene.disk s.paths.mqsIni (o.managerName s) dir) :
    startChecked o a s refusals scene =
      startService a (o.log s) s.terminator s
        (s.sources a.environment (o.managerName s) o.fromStart dir) refusals
        { scene with notices := scene.notices ++ Settings.replacedNotices a.environment } := by
  have hfound := h.errorDirectoryOf
  unfold Options.managerName at hfound
  rw [startChecked_of_passes named passes]
  unfold startSources
  dsimp only
  rw [hfound, List.append_nil]
  rfl

/-- Nothing else can happen once the settings are read and the process has a name. -/
theorem rejects_or_unclear_or_found (o : Options) (s : Settings) (env : Environment) (d : Disk) :
    (∃ message ns, Rejects o s env d message ns) ∨
      Passes o s ∧ ((∃ f, QueueManager.Unclear d s.paths.mqsIni (o.managerName s) f) ∨
        ∃ dir, QueueManager.Found d s.paths.mqsIni (o.managerName s) dir) := by
  obtain known | ⟨name, given, unknown⟩ := o.known_or_unknown
  · by_cases valid : Settings.isSelectorValid s.consoleSource
    · obtain ⟨dir, found⟩ | ⟨ns, missing⟩ | ⟨f, unclear⟩ :=
        QueueManager.found_or_missing_or_unclear d s.paths.mqsIni (o.managerName s)
      · exact .inr ⟨⟨known, valid⟩, .inr ⟨dir, found⟩⟩
      · exact .inl ⟨_, _, .manager ⟨known, valid⟩ missing⟩
      · exact .inr ⟨⟨known, valid⟩, .inl ⟨f, unclear⟩⟩
    · exact .inl ⟨_, _, .selector known valid⟩
  · exact .inl ⟨_, _, .format given unknown⟩

theorem abort_eq (t : Terminator) (message : Text) (scene : Scene) : abort t message scene =
    ((record t message scene).2.1,
      match (record t message scene).2.2 with
      | .ok status => .ended status
      | .error f => .failed f) := by
  unfold abort
  obtain ⟨t, scene, status | f⟩ := record t message scene
  · rfl
  · rfl

/-! ### The ways a start can go -/

theorem Unrecorded.start (h : Unrecorded o a scene f) (refusals : Refusals) :
    (start o a refusals scene).start = .failed f ∧ (start o a refusals scene).output = [] := by
  cases h with
  | settings failed =>
    rw [start_of_not_loaded failed]
    exact ⟨rfl, rfl⟩
  | name loaded refused =>
    rw [start_of_loaded loaded, startChecked_of_refused refused]
    exact ⟨rfl, rfl⟩
  | list loads passes unclear =>
    rw [start_of_loaded loads.loaded]
    exact startChecked_of_unclear loads.named passes unclear
  | recording loads rejected broken =>
    obtain ⟨log, hstart⟩ :=
      startChecked_of_rejects (a := { a with environment := _ }) loads.named rejected
    rw [start_of_loaded loads.loaded, hstart, abort_eq, broken]
    exact ⟨rfl, rfl⟩

theorem Records.start {after : Scene} (h : Records o a scene after) (refusals : Refusals) :
    (start o a refusals scene).start = .ended failureStatus ∧
      (start o a refusals scene).output = [] ∧
      (start o a refusals scene).scene = after := by
  obtain ⟨env, s, message, ns, t, loads, rejected, hrecord, -⟩ := h
  obtain ⟨log, hstart⟩ :=
    startChecked_of_rejects (a := { a with environment := _ }) loads.named rejected
  rw [start_of_loaded loads.loaded, hstart, abort_eq, hrecord]
  exact ⟨rfl, rfl, rfl⟩

theorem Follows.start_eq (h : Follows o a scene env s dir) (refusals : Refusals) :
    start o a refusals scene =
      startService { a with environment := env } (o.log s) s.terminator s
        (s.sources env (o.managerName s) o.fromStart dir) refusals
        { scene with notices := scene.notices ++ Settings.replacedNotices env } := by
  rw [start_of_loaded h.loaded, startChecked_of_found h.named h.toPasses h.found]

/-- What is rejected is the first fatal error: it is recorded, or the recording is broken off by a
cause. -/
theorem Rejects.recorded (loads : Loads o a scene env s)
    (h : Rejects o s env scene.disk message ns) :
    (∃ after, Records o a scene after) ∨
      ∃ f, Unrecorded o a scene f ∧ s.terminator.BreaksOff message scene.runner f := by
  obtain ⟨hmessage, hdone | ⟨f, hbroken, hcause⟩⟩ :=
    record_spec (t := s.terminator) rfl message { scene with notices := scene.notices ++ ns }
  · exact .inl ⟨_, env, s, message, ns, _, loads, h, Prod.ext rfl (Prod.ext rfl hdone), hmessage⟩
  · exact .inr ⟨f, .recording loads h hbroken, hcause⟩

theorem Follows.start (h : Follows o a scene env s dir) (refusals : Refusals) :
    ∃ p, (start o a refusals scene).start = .running p ∧ p.terminator = s.terminator := by
  rw [h.start_eq]
  exact ⟨_, rfl, rfl⟩

theorem start_cases (o : Options) (a : Ambience) (scene : Scene) :
    (∃ f, Unrecorded o a scene f) ∨ (∃ after, Records o a scene after) ∨
      ∃ env s dir, Follows o a scene env s dir := by
  rcases hboot : Settings.boot scene.disk a.environment with ⟨env, f | s⟩
  · exact .inl ⟨f, .settings hboot⟩
  obtain named | ⟨ps, refused⟩ := o.named_or_refused
  · have loads : Loads o a scene env s := ⟨hboot, named⟩
    obtain ⟨message, ns, rejected⟩ | ⟨passes, ⟨f, unclear⟩ | ⟨dir, found⟩⟩ :=
      rejects_or_unclear_or_found o s env scene.disk
    · obtain ⟨after, hrecords⟩ | ⟨f, hunrecorded, -⟩ := rejected.recorded loads
      · exact .inr (.inl ⟨after, hrecords⟩)
      · exact .inl ⟨f, hunrecorded⟩
    · exact .inl ⟨f, .list loads passes unclear⟩
    · exact .inr (.inr ⟨env, s, dir, ⟨loads, passes, found⟩⟩)
  · exact .inl ⟨_, .name hboot refused⟩

theorem Clear.records_or_follows (h : Clear o a scene env s) :
    (∃ after, Records o a scene after) ∨ ∃ dir, Follows o a scene env s dir := by
  obtain ⟨message, ns, rejected⟩ | ⟨passes, ⟨f, unclear⟩ | ⟨dir, found⟩⟩ :=
    rejects_or_unclear_or_found o s env scene.disk
  · obtain hrecords | ⟨f, -, hbroken⟩ := rejected.recorded h.toLoads
    · exact .inl hrecords
    · exact absurd hbroken (h.recording message ns f rejected)
  · exact absurd unclear (h.list f)
  · exact .inr ⟨dir, h.toLoads, passes, found⟩

/-! ### After the start -/

/-- A program that has ended with the status of a failure has a fatal error on record, and one that
goes on or has ended with another status has none. -/
structure Turn.Accounted (t : Turn) : Prop where
  going : t.result = none → t.program.terminator.message? = none
  ended : ∀ status, t.result = some (.ok status) →
    (status = failureStatus ↔ t.program.terminator.message?.isSome)

/-- The status at the end says whether there has been a fatal error. -/
theorem conclude_status {p : Program} {e : Ended} {status : Nat} (h : p.terminator.message? = none)
    (hstatus : (p.conclude a e scene).2.2 = .ok status) :
    status = failureStatus ↔ (p.conclude a e scene).1.message?.isSome := by
  unfold conclude at hstatus ⊢
  cases e with
  | stopped =>
    obtain rfl := Except.ok.inj hstatus
    simp [h, failureStatus]
  | failed f =>
    cases f with
    | source name cause =>
      obtain ⟨hmessage, hdone | ⟨g, hbroken, -⟩⟩ :=
        record_spec h (Failure.source name cause).message scene
      · obtain rfl := Except.ok.inj (hdone.symm.trans hstatus)
        simp [hmessage]
      · cases hbroken.symm.trans hstatus
    | _ => cases hstatus

theorem settle_accounted {p : Program} {output : Text} (h : p.terminator.message? = none) :
    (p.settle a output scene).Accounted := by
  cases he : p.service.ended with
  | none =>
    rw [settle_of_ended_eq_none he]
    exact ⟨fun _ => h, fun _ hresult => by cases hresult⟩
  | some e =>
    unfold settle
    rw [he]
    refine ⟨fun hresult => ?_, fun _ hresult => conclude_status h (Option.some.inj hresult)⟩
    cases hresult

theorem Turn.Accounted.next {t : Turn} (h : t.Accounted) (first : Bool) (m : Moment) :
    (t.next first m).Accounted := by
  by_cases hresult : t.result = none
  · have hmessage := h.going hresult
    unfold Turn.next
    rw [hresult]
    cases first with
    | true => exact settle_accounted hmessage
    | false =>
      dsimp only
      unfold meet
      cases hm : m.stops with
      | true => exact settle_accounted hmessage
      | false => exact settle_accounted hmessage
  · rwa [Turn.next_of_result_ne_none hresult]

theorem Turn.Accounted.foldl {t : Turn} (h : t.Accounted) (ms : List Moment) :
    (ms.foldl (Turn.next false) t).Accounted := by
  induction ms generalizing t with
  | nil => exact h
  | cons m ms ih => exact ih (h.next false m)

/-! ### The outcome -/

/-- How a start goes, and what it leaves behind. -/
structure Outcome (o : Options) (a : Ambience) (refusals : Refusals) (scene : Scene)
    (l : Launch) : Prop where
  failed : ∀ f, l.start = .failed f ↔ Unrecorded o a scene f
  ended : ∀ status, l.start = .ended status ↔ status = failureStatus ∧ Records o a scene l.scene
  running : (∃ p, l.start = .running p) ↔ ∃ env s dir, Follows o a scene env s dir
  /-- Every failure is recorded if nothing stands in the way of that. -/
  clear : ∀ env s, Clear o a scene env s → ∀ f, l.start ≠ .failed f
  /-- The sources are followed from where the start found things. -/
  service : ∀ env s dir, Follows o a scene env s dir → l =
    startService { a with environment := env } (o.log s) s.terminator s
      (s.sources env (o.managerName s) o.fromStart dir) refusals
      { scene with notices := scene.notices ++ Settings.replacedNotices env }
  /-- Otherwise nothing reaches the console. -/
  output : (∀ p, l.start ≠ .running p) → l.output = []
  /-- From then on, too, the status says whether there has been a fatal error. -/
  later : ∀ p, l.start = .running p → ∀ a (ms : List Moment),
    (ms.foldl (Turn.next false) (p.settle a l.output l.scene)).Accounted

theorem start_failed_iff :
    (start o a refusals scene).start = .failed f ↔ Unrecorded o a scene f := by
  refine ⟨fun hstart => ?_, fun h => (h.start _).1⟩
  obtain ⟨f', h⟩ | ⟨after, h⟩ | ⟨env, s, dir, h⟩ := start_cases o a scene
  · obtain rfl : f' = f := Start.failed.inj ((h.start _).1.symm.trans hstart)
    exact h
  · cases (h.start _).1.symm.trans hstart
  · obtain ⟨p, hp, -⟩ := h.start refusals
    cases hp.symm.trans hstart

theorem start_ended_iff {status : Nat} : (start o a refusals scene).start = .ended status ↔
    status = failureStatus ∧ Records o a scene (start o a refusals scene).scene := by
  refine ⟨fun hstart => ?_, fun ⟨hstatus, h⟩ => hstatus ▸ (h.start _).1⟩
  obtain ⟨f, h⟩ | ⟨after, h⟩ | ⟨env, s, dir, h⟩ := start_cases o a scene
  · cases (h.start _).1.symm.trans hstart
  · obtain ⟨hended, -, hscene⟩ := h.start refusals
    rw [hscene]
    exact ⟨Start.ended.inj (hstart.symm.trans hended), h⟩
  · obtain ⟨p, hp, -⟩ := h.start refusals
    cases hp.symm.trans hstart

theorem start_running_iff : (∃ p, (start o a refusals scene).start = .running p) ↔
    ∃ env s dir, Follows o a scene env s dir := by
  refine ⟨fun ⟨p, hstart⟩ => ?_, fun ⟨env, s, dir, h⟩ => ?_⟩
  · obtain ⟨f, h⟩ | ⟨after, h⟩ | h := start_cases o a scene
    · cases (h.start _).1.symm.trans hstart
    · cases (h.start _).1.symm.trans hstart
    · exact h
  · obtain ⟨p, hp, -⟩ := h.start refusals
    exact ⟨p, hp⟩

/-- A start fails without a record, ends with one and status 1 before anything is followed, or
follows the sources; it does each of these exactly in the cases that are listed for it.  The status
of the program is 1 exactly if a fatal error was recorded. -/
theorem start_outcome (o : Options) (a : Ambience) (refusals : Refusals) (scene : Scene) :
    Outcome o a refusals scene (start o a refusals scene) where
  failed _ := start_failed_iff
  ended _ := start_ended_iff
  running := start_running_iff
  clear env s h f hstart := by
    obtain ⟨after, hrecords⟩ | ⟨dir, hfollows⟩ := h.records_or_follows
    · cases (hrecords.start _).1.symm.trans hstart
    · obtain ⟨p, hp, -⟩ := hfollows.start refusals
      cases hp.symm.trans hstart
  service _ _ _ h := h.start_eq refusals
  output hnot := by
    obtain ⟨f, h⟩ | ⟨after, h⟩ | ⟨env, s, dir, h⟩ := start_cases o a scene
    · exact (h.start _).2
    · exact (h.start _).2.1
    · obtain ⟨p, hp, -⟩ := h.start refusals
      exact absurd hp (hnot p)
  later p hstart _ ms := by
    obtain ⟨env, s, dir, h⟩ := start_running_iff.1 ⟨p, hstart⟩
    obtain ⟨p', hp, hterminator⟩ := h.start refusals
    obtain rfl := Start.running.inj (hstart.symm.trans hp)
    have hmessage : p.terminator.message? = none := by
      rw [hterminator]
      rfl
    exact (settle_accounted hmessage).foldl ms

/-! ### Failures without a record -/

/-- A scene with a list of queue managers that is not text. -/
def listScene : Scene where
  disk := {
    tree := [(Disk.home ++ [("mqs.ini" : Text)], .file 2)]
    files := [(2, ⟨[0xFF], 1, 0o644⟩)]
    next := 3 }
  runner := []

/-- What is around a program with some variables. -/
def surrounded (entries : List (Text × Text)) : Ambience :=
  ⟨⟨entries⟩, .ok "mqhost-0", .ofInt 0, true⟩

theorem boot_listScene {env : Environment} (h : env.get? SettingsFile.pathVariable = none) :
    Settings.boot listScene.disk env = (env, Settings.load env) := by
  have hname : unnameable? ("mqlogmirror.yaml" : Text) = none := by decide +kernel
  have hplain : Disk.Plain "mqlogmirror.yaml" := by decide +kernel
  have hleaf : listScene.disk.leafAt (Disk.home ++ [("mqlogmirror.yaml" : Text)]) = none := rfl
  have hhere : listScene.disk.isThere "mqlogmirror.yaml" = false := by
    rw [hplain.isThere_eq hname (by simp [hleaf]), hleaf]
    rfl
  have hsystem : listScene.disk.isThere "/etc/mqlogmirror/config.yaml" = false := by
    have hparts : (Text.settled "/etc/mqlogmirror/config.yaml").split '/' =
        ["", "etc", "mqlogmirror", "config.yaml"] := by decide +kernel
    have hplace : listScene.disk.place "/etc/mqlogmirror/config.yaml" = .error .noEntry := by
      unfold Disk.place
      rw [if_neg (by decide), if_neg (by decide +kernel), if_pos (by decide), hparts]
      exact Disk.walk_empty_part.trans
        (Disk.walk_of_missing (by decide) (by decide +kernel) rfl (by simp))
    unfold Disk.isThere Disk.holds
    rw [hplace]
    exact Bool.and_false _
  have hfind : SettingsFile.find? listScene.disk env = none := by
    unfold SettingsFile.find? SettingsFile.candidates
    rw [h]
    exact List.find?_eq_none.2 (by simp [hhere, hsystem])
  unfold Settings.boot SettingsFile.load
  rw [hfind]
  rfl

theorem read_listScene : listScene.disk.read (Path.ofText "mqs.ini").text = .ok [0xFF] := by
  have htext : (Path.ofText "mqs.ini").text = "mqs.ini" := by decide +kernel
  have hplain : Disk.Plain "mqs.ini" := by decide +kernel
  have hfile : listScene.disk.leafAt (Disk.home ++ [("mqs.ini" : Text)]) = some (.file 2) := rfl
  rw [htext, hplain.read_eq (by decide +kernel) rfl hfile]
  rfl

/-- A limit of no failures at all, which the settings do not accept. -/
def zeroLimit : Ambience := surrounded [("MQLOGMIRROR_TAIL_MAX_CONSECUTIVE_FAILURES", "0")]

/-- A queue manager to look up in the list. -/
def namedManager : Ambience :=
  surrounded [("MQ_QMGR_NAME", "QM1"), ("MQLOGMIRROR_PATHS_MQS_INI", "mqs.ini")]

/-- What the settings say of that limit. -/
def zeroLimitProblem : Problem :=
  ⟨["max_consecutive_failures"], "greater_than_equal", "Input should be greater than or equal to 1"⟩

theorem unrecorded_zeroLimit : Unrecorded {} zeroLimit listScene (.invalid [zeroLimitProblem]) := by
  have hload : Settings.load zeroLimit.environment = .error (.invalid [zeroLimitProblem]) := rfl
  exact .settings ((boot_listScene (by decide)).trans (congrArg _ hload))

theorem unrecorded_namedManager : ∃ e, Unrecorded {} namedManager listScene (.undecodable e) := by
  have hload : (Settings.load namedManager.environment).toOption.map
      (fun s => (s.qmgrName, s.consoleSource, s.paths.mqsIni)) =
        some (("QM1" : Text), ([] : Text), Path.ofText "mqs.ini") := by decide +kernel
  obtain ⟨s, hs, hfields⟩ := Option.map_eq_some_iff.1 hload
  obtain ⟨hname, hsource, hini⟩ : s.qmgrName = "QM1" ∧ s.consoleSource = [] ∧
      s.paths.mqsIni = Path.ofText "mqs.ini" := by simpa using hfields
  have hboot : Settings.boot listScene.disk namedManager.environment =
      (namedManager.environment, .ok s) := by
    rw [boot_listScene (by decide)]
    cases hloaded : Settings.load namedManager.environment with
    | error f => simp [hloaded, Except.toOption] at hs
    | ok s' => simpa [hloaded, Except.toOption] using hs
  have hnamed : Options.managerName {} s ≠ [] := by
    show s.qmgrName ≠ []
    rw [hname]
    decide
  have hread : listScene.disk.read s.paths.mqsIni.text = .ok [0xFF] := by
    rw [hini]
    exact read_listScene
  obtain ⟨e, hbytes⟩ : ∃ e, Utf8.decodeStrict [0xFF] = .error e := ⟨_, rfl⟩
  have hcharacters : Options.Named {} := ⟨by decide, fun c hc hs => Text.notMem_ofString hs _ hc⟩
  have hpasses : Passes {} s := by
    refine ⟨fun _ given => ?_, ?_⟩
    · cases given
    · rw [hsource]
      decide
  exact ⟨e, .list ⟨hboot, hcharacters⟩ hpasses (.text hnamed hread hbytes)⟩

/-- A setting that is out of bounds is not recorded, and neither is a list that is not text. -/
theorem start_unrecorded :
    (start {} zeroLimit .none listScene).start = .failed (.invalid [zeroLimitProblem]) ∧
      ∃ e, (start {} namedManager .none listScene).start = .failed (.undecodable e) := by
  obtain ⟨e, hlist⟩ := unrecorded_namedManager
  exact ⟨(unrecorded_zeroLimit.start _).1, e, (hlist.start _).1⟩

end Program

end LogRelay
