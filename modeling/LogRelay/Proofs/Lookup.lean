import LogRelay.Proofs.Encoding
import LogRelay.Proofs.Starting

/-!
# Looking up a queue manager

A lookup answers with the first entry of the list that has the name, or that there is none, which is
also the answer for a list that the system does not let read.  It has two other answers: a path that
cannot be named, and octets that no text is encoded as, fail in their own way
(`QueueManager.find_answers`), and then the start is not recorded.
-/

namespace LogRelay

namespace Disk

variable {d : Disk} {path t : Text} {bytes : Bytes}

/-- The text of the file at a path, with its line ends read as line feeds. -/
def HoldsText (d : Disk) (path t : Text) : Prop :=
  ∃ bytes u, d.read path = .ok bytes ∧ Utf8.encode u = .ok bytes ∧ t = u.foldReturns

/-- The file at a path holds octets that no text is encoded as. -/
def Illegible (d : Disk) (path : Text) : Prop :=
  ∃ bytes, d.read path = .ok bytes ∧ ∀ t, Utf8.encode t ≠ .ok bytes

theorem readText_eq_ok_iff : d.readText path = .ok t ↔ d.HoldsText path t := by
  unfold readText HoldsText
  cases hread : d.read path with
  | error f => simp
  | ok bytes =>
    dsimp only
    cases hdecode : Utf8.decodeStrict bytes with
    | error e =>
      have hnone (u : Text) : Utf8.encode u ≠ .ok bytes := fun h => by
        rw [Utf8.decodeStrict_eq_ok_iff.2 h] at hdecode
        cases hdecode
      simp [hnone]
    | ok u =>
      have hu := Utf8.decodeStrict_eq_ok_iff.1 hdecode
      constructor
      · intro h
        exact ⟨bytes, u, rfl, hu, (Except.ok.inj h).symm⟩
      · rintro ⟨bytes', u', hbytes, hu', rfl⟩
        obtain rfl := Except.ok.inj hbytes
        rw [Utf8.decodeStrict_eq_ok_iff.2 hu'] at hdecode
        rw [Except.ok.inj hdecode]

/-- Octets that cannot be decoded are those that no text is encoded as. -/
theorem illegible_iff :
    d.Illegible path ↔ ∃ bytes e, d.read path = .ok bytes ∧ Utf8.decodeStrict bytes = .error e := by
  constructor
  · rintro ⟨bytes, hread, hnone⟩
    cases hdecode : Utf8.decodeStrict bytes with
    | error e => exact ⟨bytes, e, hread, hdecode⟩
    | ok t => exact absurd (Utf8.decodeStrict_eq_ok_iff.1 hdecode) (hnone t)
  · rintro ⟨bytes, e, hread, hdecode⟩
    refine ⟨bytes, hread, fun t ht => ?_⟩
    rw [Utf8.decodeStrict_eq_ok_iff.2 ht] at hdecode
    cases hdecode

/-- What comes of reading a text: it is there, or the system refuses it, or the path or the octets
rule it out. -/
theorem readText_cases (d : Disk) (path : Text) :
    (∃ t, d.HoldsText path t ∧ d.readText path = .ok t) ∨
      (∃ e, d.read path = .error (.io e) ∧ d.readText path = .error (.io e)) ∨
      (∃ why, unnameable? path = some why ∧ d.readText path = .error why.failure) ∨
      ∃ e, d.Illegible path ∧ d.readText path = .error (.undecodable e) := by
  cases hread : d.read path with
  | error f =>
    have hsame : d.readText path = .error f := by
      unfold readText
      rw [hread]
    obtain ⟨e, rfl⟩ | ⟨why, hwhy, rfl⟩ := read_failure hread
    · exact .inr (.inl ⟨e, rfl, hsame⟩)
    · exact .inr (.inr (.inl ⟨why, hwhy, hsame⟩))
  | ok bytes =>
    cases hdecode : Utf8.decodeStrict bytes with
    | error e =>
      exact .inr
        (.inr (.inr ⟨e, illegible_iff.2 ⟨bytes, e, hread, hdecode⟩,
          readText_of_undecodable hread hdecode⟩))
    | ok u =>
      have htext : d.HoldsText path u.foldReturns :=
        ⟨bytes, u, hread, Utf8.decodeStrict_eq_ok_iff.1 hdecode, rfl⟩
      exact .inl ⟨_, htext, readText_eq_ok_iff.2 htext⟩

end Disk

namespace QueueManager

/-- The queue manager is the first one of a list that has the name. -/
def First (name : Text) (q : QueueManager) (list : List QueueManager) : Prop :=
  ∃ before after, list = before ++ q :: after ∧ q.name = name ∧ ∀ other ∈ before, other.name ≠ name

variable {d : Disk} {name t : Text} {ini : Path} {q : QueueManager} {f : Failure}

theorem find?_eq_some_iff_first {list : List QueueManager} :
    list.find? (·.name == name) = some q ↔ First name q list := by
  rw [List.find?_eq_some_iff_append]
  unfold First
  constructor
  · rintro ⟨hname, before, after, hsplit, hbefore⟩
    exact ⟨before, after, hsplit, by simpa using hname,
      fun other ho => by simpa using hbefore other ho⟩
  · rintro ⟨before, after, hsplit, hname, hbefore⟩
    exact ⟨by simpa using hname, before, after, hsplit,
      fun other ho => by simpa using hbefore other ho⟩

theorem find_of_text (h : d.HoldsText ini.text t) : find d name ini =
    ([], match (parse t).find? (·.name == name) with
      | some q => .ok q
      | none => .error (.managerNotFound name ini.text)) := by
  unfold find
  rw [Disk.readText_eq_ok_iff.2 h]
  dsimp only
  cases (parse t).find? (·.name == name) with
  | some q => rfl
  | none => rfl

theorem find_of_first (h : d.HoldsText ini.text t) (hq : First name q (parse t)) :
    find d name ini = ([], .ok q) := by
  rw [find_of_text h, find?_eq_some_iff_first.2 hq]

theorem find_of_absent (h : d.HoldsText ini.text t) (habsent : ∀ q ∈ parse t, q.name ≠ name) :
    find d name ini = ([], .error (.managerNotFound name ini.text)) := by
  have hnone : (parse t).find? (·.name == name) = none :=
    List.find?_eq_none.2 fun q hq => by simpa using habsent q hq
  rw [find_of_text h, hnone]

theorem find_of_refused {e : IoError} (h : d.read ini.text = .error (.io e)) :
    find d name ini =
      ([.managersUnreadable ini.text e.message], .error (.managerNotFound name ini.text)) := by
  unfold find Disk.readText
  rw [h]

/-- A failure that is no refusal of the system is not made anything else. -/
theorem find_of_failure (h : d.readText ini.text = .error f) (hf : ∀ e, f ≠ .io e) :
    find d name ini = ([], .error f) := by
  unfold find
  rw [h]
  cases f with
  | io e => exact absurd rfl (hf e)
  | _ => rfl

theorem find_of_unnameable {why : Unnameable} (h : unnameable? ini.text = some why) :
    find d name ini = ([], .error why.failure) :=
  find_of_failure (Disk.readText_of_unnameable h) why.failure_ne_io

theorem find_of_illegible (h : d.Illegible ini.text) (name : Text) :
    ∃ e, find d name ini = ([], .error (.undecodable e)) := by
  obtain ⟨bytes, e, hread, he⟩ := Disk.illegible_iff.1 h
  exact ⟨e, find_of_failure (Disk.readText_of_undecodable hread he) nofun⟩

/-- The answers to a name that is looked up in the list at a path, each from a state of the list. -/
inductive Finds (d : Disk) (name : Text) (ini : Path) :
    List Notice × Except Failure QueueManager → Prop
  | first {t : Text} {q : QueueManager} (h : d.HoldsText ini.text t) (hq : First name q (parse t)) :
      Finds d name ini ([], .ok q)
  | absent {t : Text} (h : d.HoldsText ini.text t) (habsent : ∀ q ∈ parse t, q.name ≠ name) :
      Finds d name ini ([], .error (.managerNotFound name ini.text))
  | refused {e : IoError} (h : d.read ini.text = .error (.io e)) :
      Finds d name ini ([.managersUnreadable ini.text e.message],
        .error (.managerNotFound name ini.text))
  | unnameable {why : Unnameable}
      (h : unnameable? ini.text = some why) : Finds d name ini ([], .error why.failure)
  | illegible {e : Utf8.DecodeError}
      (h : d.Illegible ini.text) : Finds d name ini ([], .error (.undecodable e))

theorem finds_find (d : Disk) (name : Text) (ini : Path) : Finds d name ini (find d name ini) := by
  obtain ⟨t, ht, -⟩ | ⟨e, he, -⟩ | ⟨why, hwhy, -⟩ | ⟨e, hill, -⟩ := d.readText_cases ini.text
  · cases hfind : (parse t).find? (·.name == name) with
    | some q =>
      have hq := find?_eq_some_iff_first.1 hfind
      rw [find_of_first ht hq]
      exact .first ht hq
    | none =>
      have habsent : ∀ q ∈ parse t, q.name ≠ name := fun q hq => by
        simpa using List.find?_eq_none.1 hfind q hq
      rw [find_of_absent ht habsent]
      exact .absent ht habsent
  · rw [find_of_refused he]
    exact .refused he
  · rw [find_of_unnameable hwhy]
    exact .unnameable hwhy
  · obtain ⟨e, he⟩ := find_of_illegible hill name
    rw [he]
    exact .illegible hill

theorem failure_ne_managerNotFound (why : Unnameable) :
    why.failure ≠ .managerNotFound name ini.text := by
  cases why with
  | embeddedNul => nofun
  | surrogates e => nofun

theorem Unclear.ne_managerNotFound (h : Unclear d ini name f) :
    f ≠ .managerNotFound name ini.text := by
  cases h with
  | path _ _ => exact failure_ne_managerNotFound _
  | text _ _ _ => nofun

theorem find_eq_ok_iff :
    (find d name ini).2 = .ok q ↔ ∃ t, d.HoldsText ini.text t ∧ First name q (parse t) := by
  constructor
  · intro h
    have hfinds := finds_find d name ini
    generalize find d name ini = answer at h hfinds
    cases hfinds with
    | first ht hq => exact ⟨_, ht, Except.ok.inj h ▸ hq⟩
    | _ => cases h
  · rintro ⟨t, ht, hq⟩
    rw [find_of_first ht hq]

theorem find_eq_managerNotFound_iff :
    (find d name ini).2 = .error (.managerNotFound name ini.text) ↔
    (∃ t, d.HoldsText ini.text t ∧ ∀ q ∈ parse t, q.name ≠ name) ∨
    ∃ e, d.read ini.text = .error (.io e) := by
  constructor
  · intro h
    have hfinds := finds_find d name ini
    generalize find d name ini = answer at h hfinds
    cases hfinds with
    | absent ht habsent => exact .inl ⟨_, ht, habsent⟩
    | refused he => exact .inr ⟨_, he⟩
    | unnameable _ => exact absurd (Except.error.inj h) (failure_ne_managerNotFound _)
    | _ => cases h
  · rintro (⟨t, ht, habsent⟩ | ⟨e, he⟩)
    · rw [find_of_absent ht habsent]
    · rw [find_of_refused he]

/-- A lookup fails in another way if and only if the path cannot be named or the octets are those of
no text. -/
theorem find_unclear_iff :
    (∃ f, (find d name ini).2 = .error f ∧ f ≠ .managerNotFound name ini.text) ↔
    (unnameable? ini.text).isSome ∨ d.Illegible ini.text := by
  constructor
  · rintro ⟨f, hf, hne⟩
    have hfinds := finds_find d name ini
    generalize find d name ini = answer at hf hfinds
    cases hfinds with
    | first _ _ => cases hf
    | absent _ _ | refused _ => exact absurd (Except.error.inj hf).symm hne
    | unnameable hwhy => exact .inl (by simp [hwhy])
    | illegible hill => exact .inr hill
  · rintro (hwhy | hill)
    · obtain ⟨why, hwhy⟩ := Option.isSome_iff_exists.1 hwhy
      exact ⟨why.failure, by rw [find_of_unnameable hwhy], failure_ne_managerNotFound why⟩
    · obtain ⟨e, he⟩ := find_of_illegible hill name
      exact ⟨.undecodable e, by rw [he], nofun⟩

/-- Only a refusal of the system is noted. -/
theorem mem_find_iff {n : Notice} : n ∈ (find d name ini).1 ↔
    ∃ e, d.read ini.text = .error (.io e) ∧ n = .managersUnreadable ini.text e.message := by
  constructor
  · intro hn
    have hfinds := finds_find d name ini
    generalize find d name ini = answer at hn hfinds
    cases hfinds with
    | refused he => exact ⟨_, he, List.mem_singleton.1 hn⟩
    | _ => cases hn
  · rintro ⟨e, he, rfl⟩
    rw [find_of_refused he]
    exact List.mem_singleton_self _

theorem errorDirectoryOf_eq (h : name ≠ []) : errorDirectoryOf d name ini =
    ((find d name ini).1, (find d name ini).2.map fun q => some q.errorDirectory) := by
  rw [errorDirectoryOf_of_ne_nil h]
  obtain ⟨ns, f | q⟩ := find d name ini
  · rfl
  · rfl

end QueueManager

/-! ## What a start makes of it -/

namespace Program

open QueueManager

/-- A start looks a name up in the list at a path. -/
structure Asks (o : Options) (a : Ambience) (scene : Scene) (env : Environment)
    (s : Settings) (name : Text) (ini : Path) : Prop extends Loads o a scene env s, Passes o s where
  list : s.paths.mqsIni = ini
  manager : o.managerName s = name
  given : name ≠ []

/-- A start records a message as the first fatal error and ends with the status of a failure, unless
the recording is broken off. -/
def RecordsAtStart (s : Settings) (scene : Scene) (message : Text) (ns : List Notice)
    (l : Launch) : Prop :=
  ∃ t, t.message? = some message ∧
    ((record s.terminator message { scene with notices := scene.notices ++ ns } =
        (t, l.scene, .ok failureStatus) ∧
        l.start = .ended failureStatus) ∨
      ∃ f, record s.terminator message { scene with notices := scene.notices ++ ns } =
        (t, l.scene, .error f) ∧
        l.start = .failed f ∧ s.terminator.BreaksOff message scene.runner f)

variable {o : Options} {a : Ambience} {s : Settings} {env : Environment} {scene : Scene}
  {message name : Text} {ns : List Notice} {ini : Path}

theorem Rejects.recordsAtStart (loads : Loads o a scene env s)
    (h : Rejects o s env scene.disk message ns)
    (refusals : Refusals) : RecordsAtStart s scene message ns (start o a refusals scene) := by
  obtain ⟨log, hstart⟩ : ∃ log, startChecked o { a with environment := env } s refusals scene = _ :=
    startChecked_of_rejects loads.named h
  obtain ⟨hmessage, hresult⟩ :=
    record_spec (t := s.terminator) rfl message { scene with notices := scene.notices ++ ns }
  rw [start_of_loaded loads.loaded, hstart, abort_eq]
  unfold RecordsAtStart
  generalize record s.terminator message { scene with notices := scene.notices ++ ns } =
    recorded at *
  obtain ⟨t, after, result⟩ := recorded
  refine ⟨t, hmessage, ?_⟩
  obtain rfl | ⟨f, rfl, hbroken⟩ := hresult
  · exact .inl ⟨rfl, rfl⟩
  · exact .inr ⟨f, rfl, rfl, hbroken⟩

/-- What a start does with an answer. -/
structure Heeds (s : Settings) (scene : Scene) (env : Environment) (name : Text) (ini : Path)
    (answer : List Notice × Except Failure QueueManager) (l : Launch) : Prop where
  found : ∀ q, answer.2 = .ok q → ∃ p, l.start = .running p
  missing : answer.2 = .error (.managerNotFound name ini.text) →
    RecordsAtStart s scene ("Error mirroring queue manager error logs: " ++
      (Failure.managerNotFound name ini.text).message) (Settings.replacedNotices env ++ answer.1) l
  unclear : ∀ f, answer.2 = .error f → f ≠ .managerNotFound name ini.text → l.start = .failed f

theorem Asks.heeds (h : Asks o a scene env s name ini) (refusals : Refusals) :
    Heeds s scene env name ini (find scene.disk name ini) (start o a refusals scene) := by
  obtain ⟨loads, passes, rfl, rfl, hgiven⟩ := h
  have hanswer : errorDirectoryOf scene.disk (o.managerName s) s.paths.mqsIni = _ :=
    errorDirectoryOf_eq hgiven
  generalize find scene.disk (o.managerName s) s.paths.mqsIni = answer at hanswer
  obtain ⟨dir, hfound⟩ | ⟨ns, hmissing⟩ | ⟨f, hunclear⟩ :=
    found_or_missing_or_unclear scene.disk s.paths.mqsIni (o.managerName s)
  · rw [hfound.errorDirectoryOf] at hanswer
    obtain ⟨ns, f | q⟩ := answer
    · cases hanswer
    · have hfollows : Follows o a scene env s dir := ⟨loads, passes, hfound⟩
      obtain ⟨p, hp, -⟩ := hfollows.start refusals
      exact ⟨fun _ _ => ⟨p, hp⟩, nofun, nofun⟩
  · rw [hmissing.errorDirectoryOf] at hanswer
    obtain ⟨ns, f | q⟩ := answer
    · obtain ⟨rfl, hf⟩ := Prod.mk.inj hanswer
      obtain rfl := Except.error.inj hf
      have hrejects : Rejects o s env scene.disk _ _ := .manager passes hmissing
      refine ⟨nofun, fun _ => hrejects.recordsAtStart loads refusals, fun f h hne => ?_⟩
      exact absurd (Except.error.inj h).symm hne
    · cases hanswer
  · rw [hunclear.errorDirectoryOf] at hanswer
    obtain ⟨ns, f | q⟩ := answer
    · obtain ⟨rfl, hf⟩ := Prod.mk.inj hanswer
      obtain rfl := Except.error.inj hf
      have hunrecorded : Unrecorded o a scene f := .list loads passes hunclear
      refine ⟨nofun, fun h => ?_, fun f' h _ => ?_⟩
      · exact absurd (Except.error.inj h) hunclear.ne_managerNotFound
      · exact Except.error.inj h ▸ (hunrecorded.start refusals).1
    · cases hanswer

end Program

namespace QueueManager

/-- The answers to a name that is looked up in the list at a path, with the notices about them. -/
structure Answers (d : Disk) (name : Text) (ini : Path)
    (answer : List Notice × Except Failure QueueManager) : Prop where
  found : ∀ q, answer.2 = .ok q ↔ ∃ t, d.HoldsText ini.text t ∧ First name q (parse t)
  missing : answer.2 = .error (.managerNotFound name ini.text) ↔
    (∃ t, d.HoldsText ini.text t ∧ ∀ q ∈ parse t, q.name ≠ name) ∨
    ∃ e, d.read ini.text = .error (.io e)
  /-- There are other answers exactly to what cannot be named and what no text is encoded as. -/
  unclear : (∃ f, answer.2 = .error f ∧ f ≠ .managerNotFound name ini.text) ↔
    (unnameable? ini.text).isSome ∨ d.Illegible ini.text
  unnameable : ∀ why, unnameable? ini.text = some why → answer.2 = .error why.failure
  illegible : d.Illegible ini.text → ∃ e, answer.2 = .error (.undecodable e)
  notices : ∀ n, n ∈ answer.1 ↔ ∃ e, d.read ini.text = .error (.io e) ∧
    n = .managersUnreadable ini.text e.message
  heeded : ∀ o a refusals scene env s, scene.disk = d → Program.Asks o a scene env s name ini →
    Program.Heeds s scene env name ini answer (Program.start o a refusals scene)

/-- A lookup answers with the first entry of the name or that there is none, and fails in another
way exactly if the path cannot be named or the list holds what no text is encoded as. -/
theorem find_answers (d : Disk) (name : Text) (ini : Path) :
    Answers d name ini (find d name ini) where
  found _ := find_eq_ok_iff
  missing := find_eq_managerNotFound_iff
  unclear := find_unclear_iff
  unnameable _ h := by rw [find_of_unnameable h]
  illegible h := by
    obtain ⟨e, he⟩ := find_of_illegible h name
    exact ⟨e, by rw [he]⟩
  notices _ := mem_find_iff
  heeded _ _ refusals _ _ _ hdisk h := hdisk ▸ h.heeds refusals

/-- A list that is the one octet 0xFF is not found wanting, it fails the lookup. -/
theorem find_listScene : (find Program.listScene.disk "QM1" (Path.ofText "mqs.ini")).2 =
      .error (.undecodable ⟨.invalidStart, 0, 1, 0xFF⟩) ∧
    ¬ ((∃ q, (find Program.listScene.disk "QM1" (Path.ofText "mqs.ini")).2 = .ok q) ∨
      (find Program.listScene.disk "QM1" (Path.ofText "mqs.ini")).2 =
        .error (.managerNotFound "QM1" (Path.ofText "mqs.ini").text)) := by
  have hfind : (find Program.listScene.disk "QM1" (Path.ofText "mqs.ini")).2 =
      .error (.undecodable ⟨.invalidStart, 0, 1, 0xFF⟩) := by
    unfold find
    rw [Disk.readText_of_undecodable Program.read_listScene rfl]
  rw [hfind]
  simp

end QueueManager

end LogRelay
