import LogRelay.Proofs.Recording
import Mathlib.Data.List.TakeWhile

/-!
# Calls to end with a fatal error

Only the first call acts: every later one adds a notice and leaves the files and the commands as
they are (`Terminator.callAll_of_recorded`).

The first one records its message, reports it, and runs the diagnostic commands if notices of all
levels are written.  What the system refuses of that is noted, whichever step it is.  Three things
break it off: a record that cannot be named, a message that cannot be encoded, of which the file is
left empty, and a command that fails in a way that is not expected of commands
(`Terminator.call_fresh`).
-/

namespace LogRelay

/-! ## The results of commands -/

/-- The failure of a command that nothing holds up. -/
def CommandResult.fault? : CommandResult → Option Failure
  | .failed f => some f
  | _ => none

namespace Runner

/-- The results of some next commands. -/
def results : Nat → Runner → List CommandResult
  | 0, _ => []
  | n + 1, r => r.next.1 :: results n r.next.2

/-- The runner after some commands. -/
def after : Nat → Runner → Runner
  | 0, r => r
  | n + 1, r => after n r.next.2

theorem length_results (n : Nat) (r : Runner) : (results n r).length = n := by
  induction n generalizing r with
  | zero => rfl
  | succ n ih => rw [results, List.length_cons, ih]

theorem mem_of_mem_results {n : Nat} {r : Runner} {result : CommandResult}
    (h : result ∈ results n r) : result = .output none ∨ result ∈ r := by
  induction n generalizing r with
  | zero => cases h
  | succ n ih =>
    obtain rfl | h := List.mem_cons.1 h
    · exact next_mem
    · exact (ih h).imp_right fun hr => r.next_subset hr

end Runner

namespace Terminator

/-- What is reported about a command with a result, under a title. -/
def reports (title : Text) (command : Command) : CommandResult → List Notice
  | .output bytes => [.diagnosticsOutput title (Utf8.decode (bytes.getD []))]
  | .refused e =>
    [.commandFailed command.words (Failure.io ⟨e, command.words.head?⟩).message,
      .diagnosticsOutput title []]
  | .timedOut seconds =>
    [.commandFailed command.words (Failure.timeout command.words seconds).message,
      .diagnosticsOutput title []]
  | .broken error => [.commandFailed command.words error, .diagnosticsOutput title []]
  | .failed _ => []

/-- What is reported about commands with some results, as far as there are results. -/
def reportsAll : List (Text × Command) → List CommandResult → List Notice
  | (title, command) :: commands, result :: results =>
    reports title command result ++ reportsAll commands results
  | _, _ => []

variable {t : Terminator} {scene : Scene} {title message : Text} {command : Command} {f : Failure}

theorem reports_of_fault {result : CommandResult} (h : result.fault? = some f) :
    reports title command result = [] := by
  cases result with
  | failed _ => rfl
  | _ => cases h

theorem notify_eq (n : Notice) (scene : Scene) :
    notify n scene = .ok () { scene with notices := scene.notices ++ [n] } := rfl

section

variable {α β : Type}

theorem bind_of_ok {act : Act β} {k : β → Act α} {b : β} {after : Scene}
    (h : act scene = .ok b after) : (act >>= k) scene = k b after := by
  show EStateM.bind act k scene = k b after
  rw [EStateM.bind, h]

theorem bind_of_error {act : Act β} {k : β → Act α} {after : Scene}
    (h : act scene = .error f after) : (act >>= k) scene = .error f after := by
  show EStateM.bind act k scene = .error f after
  rw [EStateM.bind, h]

theorem get_bind (k : Scene → Act α) (scene : Scene) : (get >>= k) scene = k scene scene := rfl

theorem set_bind (k : PUnit → Act α) (after scene : Scene) : (set after >>= k) scene = k ⟨⟩ after :=
  rfl

end

theorem diagnose_eq (title : Text) (command : Command) (scene : Scene) :
    diagnose title command scene =
      let after : Scene := { scene with
        runner := scene.runner.next.2, commands := scene.commands ++ [command]
        notices := scene.notices ++ reports title command scene.runner.next.1 }
      match scene.runner.next.1.fault? with
      | none => .ok () after
      | some f => .error f after := by
  -- A command that failed as expected gives two notices, one after the other.
  have htwo (n n' : Notice) : scene.notices ++ [n, n'] = scene.notices ++ [n] ++ [n'] := by simp
  unfold diagnose capture
  rw [bind_assoc, get_bind]
  generalize scene.runner.next = next
  obtain ⟨result, runner⟩ := next
  dsimp only
  rw [bind_assoc, set_bind]
  cases result with
  | output bytes => rfl
  | refused _ | timedOut _ | broken _ =>
    rw [reports, htwo]
    rfl
  | failed f =>
    rw [reports, List.append_nil]
    rfl

/-- The results before the first fault. -/
def sound (results : List CommandResult) : List CommandResult := results.takeWhile (·.fault?.isNone)

/-- The commands run until one of them fails, by induction on those that are to be run. -/
theorem diagnoseAll_eq (commands : List (Text × Command)) (scene : Scene) :
    diagnoseAll commands scene =
      let results := scene.runner.results commands.length
      let ran := commands.take ((sound results).length + 1)
      let after : Scene := { scene with
        runner := scene.runner.after ran.length, commands := scene.commands ++ ran.map Prod.snd
        notices := scene.notices ++ reportsAll commands (sound results) }
      match results.findSome? (·.fault?) with
      | none => .ok () after
      | some f => .error f after := by
  induction commands generalizing scene with
  | nil =>
    simp only [Runner.results, Runner.after, reportsAll, List.take_nil, List.map_nil,
      List.append_nil, List.length_nil]
    rfl
  | cons entry commands ih =>
    obtain ⟨title, command⟩ := entry
    show EStateM.bind (diagnose title command) (fun _ => diagnoseAll commands) scene = _
    unfold EStateM.bind
    rw [diagnose_eq]
    dsimp only
    rw [List.length_cons, Runner.results]
    cases hfault : scene.runner.next.1.fault? with
    | some f =>
      simp [sound, hfault, Runner.after, reportsAll, reports_of_fault hfault]
    | none => simp [ih, sound, hfault, Runner.after, reportsAll]

/-! ## Diagnostics -/

/-- The diagnostic commands of some paths: a listing of each directory, then a summary in the
directory of the error reports. -/
def listings (paths : PathSettings) : List Command :=
  (paths.diagnosticDirs.map fun dir => ⟨["ls", "-l", dir], none, paths.diagnosticsTimeout⟩) ++
    [⟨[paths.ffstsummary.text], some paths.errorsDir.text, paths.diagnosticsTimeout⟩]

/-- What comes of the diagnostics. -/
structure Diagnosis where
  /-- The commands that are run. -/
  ran : List Command
  told : List Notice
  fault? : Option Failure

/-- What comes of the diagnostics with some results of commands to come. -/
def diagnosis (t : Terminator) (runner : Runner) : Diagnosis :=
  if t.debug then
    let commands := diagnosticCommands t.paths
    let results := runner.results commands.length
    let fault? := results.findSome? (·.fault?)
    { ran := (commands.take ((sound results).length + 1)).map Prod.snd
      told := .diagnosticsBegin :: reportsAll commands (sound results) ++
        if fault?.isNone then [.diagnosticsEnd] else []
      fault? }
  else ⟨[], [], none⟩

theorem diagnostics_eq (t : Terminator) (scene : Scene) :
    t.diagnostics scene =
      let diagnosis := t.diagnosis scene.runner
      let after : Scene := { scene with
        runner := scene.runner.after diagnosis.ran.length, commands :=
          scene.commands ++ diagnosis.ran
        notices := scene.notices ++ diagnosis.told }
      match diagnosis.fault? with
      | none => .ok () after
      | some f => .error f after := by
  obtain ⟨paths, debug, message?⟩ := t
  cases debug with
  | false => simp [diagnostics, diagnosis, Runner.after, pure, EStateM.pure]
  | true =>
    have hbegin : diagnostics ⟨paths, true, message?⟩ scene =
        (do diagnoseAll (diagnosticCommands paths); notify .diagnosticsEnd : Act Unit)
          { scene with notices := scene.notices ++ [.diagnosticsBegin] } := by
      unfold diagnostics
      rw [if_pos rfl]
      rfl
    rw [hbegin]
    show EStateM.bind (diagnoseAll (diagnosticCommands paths)) (fun _ => notify .diagnosticsEnd) _
      = _
    unfold EStateM.bind
    rw [diagnoseAll_eq]
    dsimp only
    cases hfault :
        (scene.runner.results (diagnosticCommands paths).length).findSome? (·.fault?) with
    | none => simp [diagnosis, hfault, notify_eq]
    | some f => simp [diagnosis, hfault]

theorem fault?_diagnosis_eq_none_iff {runner : Runner} : (t.diagnosis runner).fault? = none ↔
    (t.debug = true → ∀ result ∈ runner.results (t.paths.diagnosticDirs.length + 1),
      result.fault? = none) := by
  have hlength : (diagnosticCommands t.paths).length = t.paths.diagnosticDirs.length + 1 := by
    simp [diagnosticCommands]
  unfold diagnosis
  split
  · next hdebug =>
    dsimp only
    rw [List.findSome?_eq_none_iff, hlength]
    exact ⟨fun h _ => h, fun h => h hdebug⟩
  · next hquiet => exact ⟨fun _ hdebug => absurd hdebug hquiet, fun _ => rfl⟩

/-- Without a fault all commands are run and reported about, if notices of all levels are
written. -/
theorem diagnosis_of_sound {runner : Runner} (h : (t.diagnosis runner).fault? = none) :
    (t.diagnosis runner).ran = (if t.debug then listings t.paths else []) ∧
      (t.diagnosis runner).told = if t.debug then
        let commands := diagnosticCommands t.paths
        Notice.diagnosticsBegin :: reportsAll commands (runner.results commands.length) ++
          [.diagnosticsEnd]
      else [] := by
  unfold diagnosis at h ⊢
  cases hdebug : t.debug with
  | false => exact ⟨rfl, rfl⟩
  | true =>
    rw [hdebug, if_pos rfl] at h
    dsimp only at h
    have hsound : sound (runner.results (diagnosticCommands t.paths).length) =
        runner.results (diagnosticCommands t.paths).length := by
      refine List.takeWhile_eq_self_iff.2 fun result hresult => ?_
      rw [List.findSome?_eq_none_iff.1 h result hresult]
      rfl
    have hall : (diagnosticCommands t.paths).map Prod.snd = listings t.paths := by
      simp [listings, diagnosticCommands]
    rw [if_pos rfl]
    dsimp only
    rw [h, hsound, Runner.length_results, List.take_of_length_le (Nat.le_succ _)]
    exact ⟨hall, rfl⟩

/-! ## The record -/

section

variable {path : Path} {disk : Disk}

theorem writeRecord_of_broken (h : scene.disk.putText path.text message recordMode = (disk, some f))
    (hf : ∀ e, f ≠ .io e) : writeRecord path message scene = .error f { scene with disk } := by
  unfold writeRecord
  rw [get_bind, h]
  dsimp only
  rw [set_bind]
  cases f with
  | io e => exact absurd rfl (hf e)
  | _ => rfl

/-- A refusal of the system is noted. -/
theorem writeRecord_of_noted {refusal : Option IoError}
    (h : scene.disk.putText path.text message recordMode = (disk, refusal.map .io)) :
    writeRecord path message scene = .ok () { scene with
      disk, notices := scene.notices ++ refusal.toList.map
        fun e => .recordUnwritable path.text e.message } := by
  unfold writeRecord
  rw [get_bind, h]
  dsimp only
  rw [set_bind]
  cases refusal with
  | none =>
    rw [Option.toList_none, List.map_nil, List.append_nil]
    rfl
  | some e => rfl

end

theorem record_of_broken {disk : Disk}
    (h : scene.disk.putText t.paths.terminationLog.text message recordMode = (disk, some f))
    (hf : ∀ e, f ≠ .io e) :
    t.record message scene =
      .error f { scene with
        disk, notices := scene.notices ++ [.recordingTermination message] } := by
  refine (bind_of_ok (notify_eq _ _)).trans ?_
  exact bind_of_error (writeRecord_of_broken h hf)

/-- What is reported before the diagnostics. -/
def recordNotices (path message : Text) (refusal : Option IoError) : List Notice :=
  .recordingTermination message :: (refusal.toList.map fun e => .recordUnwritable path e.message) ++
    [.terminated message]

theorem record_of_noted {disk : Disk} {refusal : Option IoError}
    (h : scene.disk.putText t.paths.terminationLog.text message recordMode =
      (disk, refusal.map .io)) :
    t.record message scene = t.diagnostics { scene with
      disk, notices := scene.notices ++
        recordNotices t.paths.terminationLog.text message refusal } := by
  have hwrite : writeRecord t.paths.terminationLog message
      { scene with notices := scene.notices ++ [.recordingTermination message] } = _ :=
    writeRecord_of_noted h
  refine (bind_of_ok (notify_eq _ _)).trans ?_
  refine (bind_of_ok hwrite).trans ?_
  refine (bind_of_ok (notify_eq _ _)).trans ?_
  simp [recordNotices]

/-! ## One call -/

variable {d : Disk} {path : Text}

/-- The record can be named, and the message can be encoded or the file is not opened in the first
place. -/
structure Recordable (d : Disk) (path message : Text) : Prop where
  named : unnameable? path = none
  text : (∃ bytes, Utf8.encode message = .ok bytes) ∨ ∃ e, d.openEmptied path = .error e

/-- What there is of the record of a message. -/
structure Kept (d : Disk) (path message : Text) (after : Disk) : Prop where
  unopened {e : IoError} (h : d.openEmptied path = .error e) : after = d
  written {bytes : Bytes} (h : Utf8.encode message = .ok bytes) : d.Put path bytes recordMode after

theorem Recordable.putText (h : Recordable d path message) :
    ∃ after, d.putText path message recordMode = (after, (d.refusal? path).map .io) ∧
    Kept d path message after := by
  obtain ⟨hnamed, ⟨bytes, hbytes⟩ | ⟨e, hopen⟩⟩ := h
  · obtain ⟨hfailure, hput⟩ := Disk.putText_of_encode hnamed hbytes recordMode
    refine ⟨_, Prod.ext rfl hfailure, fun hopen => ?_, fun hbytes' => ?_⟩
    · rwa [Disk.Put, hopen] at hput
    · rw [hbytes] at hbytes'
      exact Except.ok.inj hbytes' ▸ hput
  · refine ⟨d, ?_, fun _ => rfl, fun _ => ?_⟩
    · rw [Disk.putText_of_failure (Disk.writeText_of_unopened hnamed hopen message),
        Disk.refusal?, hopen]
      rfl
    · rw [Disk.Put, hopen]

theorem recordable_cases (d : Disk) (path message : Text) :
    Recordable d path message ∨ (∃ why, unnameable? path = some why) ∨
      ∃ e emptied, unnameable? path = none ∧ Utf8.encode message = .error e ∧
      d.openEmptied path = .ok emptied := by
  cases hnamed : unnameable? path with
  | some why => exact .inr (.inl ⟨why, rfl⟩)
  | none =>
    cases htext : Utf8.encode message with
    | ok bytes => exact .inl ⟨hnamed, .inl ⟨bytes, htext⟩⟩
    | error e =>
      cases hopen : d.openEmptied path with
      | error refusal => exact .inl ⟨hnamed, .inr ⟨refusal, hopen⟩⟩
      | ok emptied => exact .inr (.inr ⟨e, emptied, rfl, rfl, rfl⟩)

/-- A call: the terminator and the scene after it, and the failure that leaves it. -/
def call (t : Terminator) (message : Text) (scene : Scene) : Terminator × Scene × Option Failure :=
  let (t, act) := t.terminate message
  match act scene with
  | .ok _ after => (t, after, none)
  | .error f after => (t, after, some f)

/-- Calls one after another, with the failures that leave them. -/
def callAll : Terminator → List Text → Scene → Terminator × Scene × List (Option Failure)
  | t, [], scene => (t, scene, [])
  | t, message :: messages, scene =>
    let (t, scene, failure?) := t.call message scene
    let (t, scene, failures) := callAll t messages scene
    (t, scene, failure? :: failures)

theorem call_of_recorded {first : Text} (h : t.message? = some first) (message : Text)
    (scene : Scene) :
    t.call message scene =
      (t, { scene with notices := scene.notices ++ [.alreadyTerminated message] }, none) := by
  unfold call terminate
  rw [h]
  rfl

/-- Once a fatal error is recorded, calls add one notice each and do nothing else. -/
theorem callAll_of_recorded {first : Text} (h : t.message? = some first) (messages : List Text)
    (scene : Scene) :
    t.callAll messages scene =
      (t, { scene with notices := scene.notices ++ messages.map .alreadyTerminated }, messages.map
        fun _ => none) := by
  induction messages generalizing scene with
  | nil => simp [callAll]
  | cons message messages ih =>
    unfold callAll
    rw [call_of_recorded h]
    dsimp only
    rw [ih]
    simp

/-- The first message is kept, whatever comes of the call. -/
theorem fst_call (h : t.message? = none) (message : Text) (scene : Scene) :
    (t.call message scene).1 = { t with message? := some message } := by
  unfold call terminate
  rw [h]
  dsimp only
  split
  · rfl
  · rfl

theorem call_of_unnameable {why : Unnameable} (h : t.message? = none)
    (hpath : unnameable? t.paths.terminationLog.text = some why) (message : Text) (scene : Scene) :
    t.call message scene = ({ t with message? := some message },
      { scene with notices := scene.notices ++ [.recordingTermination message] },
        some why.failure) := by
  have hput := Disk.putText_of_failure
    (Disk.writeText_of_unnameable (d := scene.disk) hpath message) recordMode
  unfold call terminate
  rw [h]
  dsimp only
  rw [record_of_broken hput why.failure_ne_io]

theorem call_of_unencodable {e : Utf8.EncodeError} {emptied : Disk} (h : t.message? = none)
    (hpath : unnameable? t.paths.terminationLog.text = none)
    (htext : Utf8.encode message = .error e)
    (hopen : scene.disk.openEmptied t.paths.terminationLog.text = .ok emptied) :
    t.call message scene = ({ t with message? := some message },
      { scene with disk := emptied, notices := scene.notices ++ [.recordingTermination message] },
      some (.unencodable e)) := by
  have hput := Disk.putText_of_failure (Disk.writeText_of_unencodable hpath hopen htext) recordMode
  unfold call terminate
  rw [h]
  dsimp only
  rw [record_of_broken hput nofun]

/-- A call goes on to the diagnostics. -/
structure GoesOn (t : Terminator) (message : Text)
    (scene after : Scene) (failure? : Option Failure) : Prop where
  record : Kept scene.disk t.paths.terminationLog.text message after.disk
  notices : after.notices = scene.notices ++ recordNotices t.paths.terminationLog.text message
    (scene.disk.refusal? t.paths.terminationLog.text) ++ (t.diagnosis scene.runner).told
  commands : after.commands = scene.commands ++ (t.diagnosis scene.runner).ran
  failure : failure? = (t.diagnosis scene.runner).fault?

theorem call_of_recordable (h : t.message? = none)
    (hrecord : Recordable scene.disk t.paths.terminationLog.text message) :
    ∃ after failure?, t.call message scene =
      ({ t with message? := some message }, after, failure?) ∧
      t.GoesOn message scene after failure? := by
  obtain ⟨disk, hput, hkept⟩ := hrecord.putText
  have hact := record_of_noted hput
  rw [diagnostics_eq] at hact
  dsimp only at hact
  unfold call terminate
  rw [h]
  dsimp only
  rw [hact]
  cases hfault : (t.diagnosis scene.runner).fault? with
  | none => exact ⟨_, _, rfl, hkept, rfl, rfl, hfault.symm⟩
  | some f => exact ⟨_, _, rfl, hkept, rfl, rfl, hfault.symm⟩

/-! ## The first call -/

/-- What comes of the first call.  It returns exactly if the record can be made or is refused by the
system and, if notices of all levels are written, no command fails in a way that is not expected of
commands. -/
structure FirstCall (t : Terminator) (message : Text) (scene : Scene)
    (called : Terminator × Scene × Option Failure) : Prop where
  first : called.1 = { t with message? := some message }
  returns : called.2.2 = none ↔ Recordable scene.disk t.paths.terminationLog.text message ∧
    (t.debug = true → ∀ result ∈ scene.runner.results (t.paths.diagnosticDirs.length + 1),
      result.fault? = none)
  unnameable : ∀ why, unnameable? t.paths.terminationLog.text = some why →
    called.2 = ({ scene with notices := scene.notices ++ [.recordingTermination message] },
      some why.failure)
  /-- The file is left empty. -/
  unencodable : unnameable? t.paths.terminationLog.text = none →
    ∀ e, Utf8.encode message = .error e →
    ∀ emptied, scene.disk.openEmptied t.paths.terminationLog.text = .ok emptied →
      called.2 =
        ({ scene with
          disk := emptied, notices := scene.notices ++ [.recordingTermination message] },
        some (.unencodable e))
  goesOn : Recordable scene.disk t.paths.terminationLog.text message →
    t.GoesOn message scene called.2.1 called.2.2
  /-- A call that returns has done everything. -/
  whole : called.2.2 = none →
    called.2.1.commands = scene.commands ++ (if t.debug then listings t.paths else []) ∧
      called.2.1.notices = scene.notices ++ recordNotices t.paths.terminationLog.text message
        (scene.disk.refusal? t.paths.terminationLog.text) ++ if t.debug then
          let commands := diagnosticCommands t.paths
          Notice.diagnosticsBegin :: reportsAll commands (scene.runner.results commands.length) ++
            [.diagnosticsEnd]
        else []

theorem not_recordable_of_unnameable {why : Unnameable} (h : unnameable? path = some why) :
    ¬ Recordable d path message := by
  intro hrecord
  cases hrecord.named.symm.trans h

theorem not_recordable_of_unencodable {e : Utf8.EncodeError} {emptied : Disk}
    (htext : Utf8.encode message = .error e)
    (hopen : d.openEmptied path = .ok emptied) : ¬ Recordable d path message := by
  rintro ⟨-, ⟨bytes, hbytes⟩ | ⟨refusal, hrefusal⟩⟩
  · rw [htext] at hbytes
    cases hbytes
  · rw [hopen] at hrefusal
    cases hrefusal

theorem call_fresh (paths : PathSettings) (debug : Bool) (message : Text) (scene : Scene) :
    FirstCall { paths, debug } message scene (call { paths, debug } message scene) := by
  obtain hrecord | ⟨why, hwhy⟩ | ⟨e, emptied, hnamed, htext, hopen⟩ :=
    recordable_cases scene.disk paths.terminationLog.text message
  · obtain ⟨after, failure?, hcall, hgoes⟩ := call_of_recordable (t := { paths, debug }) rfl hrecord
    rw [hcall]
    refine ⟨rfl, ?_,
      fun why hwhy => ?_, fun _ e htext emptied hopen => ?_, fun _ => hgoes, fun hnone => ?_⟩
    · dsimp only
      rw [hgoes.failure, fault?_diagnosis_eq_none_iff]
      exact (and_iff_right hrecord).symm
    · exact absurd hrecord (not_recordable_of_unnameable hwhy)
    · exact absurd hrecord (not_recordable_of_unencodable htext hopen)
    · obtain ⟨hran, htold⟩ := diagnosis_of_sound (hgoes.failure.symm.trans hnone)
      exact ⟨hgoes.commands.trans (congrArg _ hran), hgoes.notices.trans (congrArg _ htold)⟩
  · rw [call_of_unnameable rfl hwhy]
    have hnot : ¬ Recordable scene.disk paths.terminationLog.text message :=
      not_recordable_of_unnameable hwhy
    refine ⟨rfl, ⟨nofun, fun h => absurd h.1 hnot⟩,
      fun why' hwhy' => ?_, fun hnamed => ?_, fun h => absurd h hnot, nofun⟩
    · obtain rfl := Option.some.inj (hwhy.symm.trans hwhy')
      rfl
    · cases hnamed.symm.trans hwhy
  · rw [call_of_unencodable rfl hnamed htext hopen]
    have hnot : ¬ Recordable scene.disk paths.terminationLog.text message :=
      not_recordable_of_unencodable htext hopen
    refine ⟨rfl, ⟨nofun, fun h => absurd h.1 hnot⟩,
      fun why hwhy => ?_, fun _ e' htext' emptied' hopen' => ?_, fun h => absurd h hnot, nofun⟩
    · cases hnamed.symm.trans hwhy
    · obtain rfl := Except.error.inj (htext.symm.trans htext')
      obtain rfl := Except.ok.inj (hopen.symm.trans hopen')
      rfl

/-- The usual places, with another one for the record. -/
def recordingAt (path : Text) : PathSettings :=
  { PathSettings.default with terminationLog := Path.ofText path }

/-- Nothing but the directory that relative paths begin at, and no results of commands. -/
def bareScene : Scene where
  disk := .empty
  runner := []

/-- A surrogate that stands for an octet breaks the call off: the message is not reported, and the
record is left empty. -/
theorem call_surrogate :
    let message : Text := "caf" ++ [Text.octetPoint 0xE9]
    let called := call { paths := recordingAt "termination-log", debug := false } message bareScene
    called.2.2 = some (.unencodable ⟨3, [Text.octetPoint 0xE9]⟩) ∧
      called.2.1.notices = [.recordingTermination message] ∧
      ∃ n, called.2.1.disk.openFile "termination-log" = .ok n ∧
      (called.2.1.disk.file n).bytes = [] := by
  intro message called
  have hpath : (recordingAt "termination-log").terminationLog.text = "termination-log" := by
    decide +kernel
  have hnamed : unnameable? ("termination-log" : Text) = none := by decide +kernel
  have htext : Utf8.encode message = .error ⟨3, [Text.octetPoint 0xE9]⟩ := by rfl
  have hplain : Disk.Plain "termination-log" := by decide +kernel
  have hleaf : Disk.empty.leafAt (Disk.home ++ [("termination-log" : Text)]) = none := rfl
  have hplace := hplain.place (d := .empty) (by simp [hleaf])
  obtain ⟨emptied, hopen⟩ : ∃ emptied, Disk.empty.openEmptied "termination-log" = .ok emptied := by
    unfold Disk.openEmptied Disk.write
    rw [hplace, hleaf]
    exact ⟨_, rfl⟩
  have hcall : called = _ := call_of_unencodable rfl (hpath ▸ hnamed) htext (hpath ▸ hopen)
  obtain ⟨n, hn, hempty, -⟩ := (Disk.changed_openEmptied hopen).file
  rw [hcall]
  exact ⟨rfl, rfl, n, hn, hempty⟩

/-! ## All calls -/

/-- All calls return, and what there is afterwards is that of the first one. -/
structure AllReturn (paths : PathSettings) (debug : Bool) (first : Text) (bytes : Bytes)
    (rest : List Text) (scene after : Scene) (failures : List (Option Failure)) : Prop where
  failures : ∀ failure? ∈ failures, failure? = none
  record : scene.disk.Put paths.terminationLog.text bytes recordMode after.disk
  notices : after.notices = scene.notices ++
    recordNotices paths.terminationLog.text first
      (scene.disk.refusal? paths.terminationLog.text) ++
    (diagnosis { paths, debug } scene.runner).told ++ rest.map .alreadyTerminated
  error : (after.notices.drop scene.notices.length).filter (fun n => n.level = .error) =
    [.terminated first]
  commands : after.commands = scene.commands ++ if debug then listings paths else []

/-- What comes of calls of which the first one is the first of all. -/
structure OnlyFirst (paths : PathSettings) (debug : Bool) (first : Text)
    (rest : List Text) (scene : Scene)
    (called : Terminator × Scene × List (Option Failure)) : Prop where
  message : called.1 = { paths, debug, message? := some first }
  /-- The later calls return, and add one notice each to what the first one has left. -/
  later : ∃ after failure?, call { paths, debug } first scene = (called.1, after, failure?) ∧
    called.2 = ({ after with notices := after.notices ++ rest.map .alreadyTerminated },
      failure? :: rest.map fun _ => none)
  returns : unnameable? paths.terminationLog.text = none → ∀ bytes, Utf8.encode first = .ok bytes →
    (∀ result ∈ scene.runner, result.fault? = none) →
      AllReturn paths debug first bytes rest scene called.2.1 called.2.2
  /-- A record that cannot be named breaks the first call off. -/
  unnameable : ∀ why, unnameable? paths.terminationLog.text = some why →
    called.2 =
      ({ scene with
        notices :=
          scene.notices ++ .recordingTermination first :: rest.map .alreadyTerminated },
      some why.failure :: rest.map fun _ => none)

theorem level_of_mem_reports {result : CommandResult} {n : Notice}
    (h : n ∈ reports title command result) : n.level = .debug := by
  cases result with
  | output bytes =>
    obtain rfl := List.mem_singleton.1 h
    rfl
  | failed f => cases h
  | _ =>
    obtain rfl | h := List.mem_cons.1 h
    · rfl
    · obtain rfl := List.mem_singleton.1 h
      rfl

theorem level_of_mem_reportsAll {commands : List (Text × Command)}
    {results : List CommandResult} {n : Notice}
    (h : n ∈ reportsAll commands results) : n.level = .debug := by
  fun_induction reportsAll commands results with
  | case1 title command commands result results ih =>
    obtain h | h := List.mem_append.1 h
    · exact level_of_mem_reports h
    · exact ih h
  | case2 => cases h

theorem level_of_mem_told {runner : Runner} {n : Notice} (h : n ∈ (t.diagnosis runner).told) :
    n.level = .debug := by
  unfold diagnosis at h
  split at h
  · dsimp only at h
    obtain h | h := List.mem_append.1 h
    · obtain rfl | h := List.mem_cons.1 h
      · rfl
      · exact level_of_mem_reportsAll h
    · split at h
      · obtain rfl := List.mem_singleton.1 h
        rfl
      · cases h
  · cases h

/-- Of what calls report, the message of the first one alone is an error. -/
theorem filter_error (path first : Text) (refusal : Option IoError) (runner : Runner)
    (rest : List Text) :
    (recordNotices path first refusal ++ (t.diagnosis runner).told ++
      rest.map Notice.alreadyTerminated).filter
      (fun n => n.level = .error) = [.terminated first] := by
  have hrecord : (recordNotices path first refusal).filter (fun n => n.level = .error) =
      [.terminated first] := by
    cases refusal with
    | none => rfl
    | some e => rfl
  have htold : (t.diagnosis runner).told.filter (fun n => n.level = .error) = [] := by
    refine List.filter_eq_nil_iff.2 fun n hn => ?_
    simp [level_of_mem_told hn]
  have hrest : (rest.map Notice.alreadyTerminated).filter (fun n => n.level = .error) = [] := by
    refine List.filter_eq_nil_iff.2 fun n hn => ?_
    obtain ⟨message, -, rfl⟩ := List.mem_map.1 hn
    simp [Notice.level]
  rw [List.filter_append, List.filter_append, hrecord, htold, hrest]
  rfl

theorem callAll_fresh (paths : PathSettings) (debug : Bool) (first : Text) (rest : List Text)
    (scene : Scene) :
    OnlyFirst paths debug first rest scene (callAll { paths, debug } (first :: rest) scene) := by
  have hfirst := fst_call (t := { paths, debug }) rfl first scene
  rcases hcall : call { paths, debug } first scene with ⟨t, after, failure?⟩
  rw [hcall] at hfirst
  obtain rfl : t = { paths, debug, message? := some first } := hfirst
  have hcalls : callAll { paths, debug } (first :: rest) scene =
      ({ paths, debug, message? := some first },
        { after with notices := after.notices ++ rest.map .alreadyTerminated },
        failure? :: rest.map fun _ => none) := by
    unfold callAll
    rw [hcall]
    dsimp only
    rw [callAll_of_recorded rfl]
  rw [hcalls]
  refine ⟨rfl, ⟨after, failure?, hcall, rfl⟩, fun hnamed bytes htext hexpected => ?_,
    fun why hwhy => ?_⟩
  · obtain ⟨after', failure', hcall', hgoes⟩ :=
      call_of_recordable (t := { paths, debug }) rfl ⟨hnamed, .inl ⟨bytes, htext⟩⟩
    obtain ⟨rfl, rfl⟩ := Prod.mk.inj (Prod.mk.inj (hcall.symm.trans hcall')).2
    have hfault : (diagnosis { paths, debug } scene.runner).fault? = none := by
      refine fault?_diagnosis_eq_none_iff.2 fun _ result hresult => ?_
      obtain rfl | hresult := Runner.mem_of_mem_results hresult
      · rfl
      · exact hexpected result hresult
    obtain ⟨hran, -⟩ := diagnosis_of_sound hfault
    have hnotices := hgoes.notices
    refine ⟨fun f hf => ?_, hgoes.record.written htext, ?_, ?_, ?_⟩
    · obtain rfl | hf := List.mem_cons.1 hf
      · exact hgoes.failure.trans hfault
      · obtain ⟨message, -, rfl⟩ := List.mem_map.1 hf
        rfl
    · dsimp only
      rw [hnotices]
    · dsimp only
      rw [hnotices, List.append_assoc, List.append_assoc, List.drop_left, ← List.append_assoc]
      exact filter_error _ _ _ _ _
    · exact hgoes.commands.trans (congrArg _ hran)
  · have hcall' := call_of_unnameable (t := { paths, debug }) rfl hwhy first scene
    obtain ⟨rfl, rfl⟩ := Prod.mk.inj (Prod.mk.inj (hcall.symm.trans hcall')).2
    simp

/-- A path without a NUL that cannot be named all the same breaks the first call off: a queue
manager that is not found is not reported. -/
theorem callAll_unnameable :
    let path : Text := [CodePoint.ofNat 0xD800]
    let message : Text :=
      "Error mirroring queue manager error logs: Queue manager QM1 not found in missing.ini"
    let called := callAll { paths := recordingAt path, debug := false } [message] bareScene
    ('\x00' : CodePoint) ∉ (recordingAt path).terminationLog.text ∧
      (∃ bytes, Utf8.encode message = .ok bytes) ∧
      called.2.2 = [some (.unencodable ⟨0, path⟩)] ∧
      called.2.1.notices = [.recordingTermination message] := by
  intro path message called
  have hwhy : unnameable? (recordingAt path).terminationLog.text = some (.surrogates ⟨0, path⟩) :=
    rfl
  have hcall := call_of_unnameable (t := { paths := recordingAt path, debug := false }) rfl hwhy
    message bareScene
  have hcalled : called =
      callAll { paths := recordingAt path, debug := false } [message] bareScene :=
    rfl
  unfold callAll at hcalled
  rw [hcall] at hcalled
  rw [hcalled]
  exact ⟨by decide +kernel, ⟨_, rfl⟩, rfl, rfl⟩

end Terminator

end LogRelay
