import LogRelay.Proofs.Members
import LogRelay.Proofs.Recording
import LogRelay.Program

/-!
# How the program ends

A program over a fresh service is run over some moments (`Program.run`).  As long as no follower has
failed and the program was not told to stop, all sources are followed.
-/

namespace LogRelay

/-! ## Runs of the program -/

namespace Program

/-- What a step of the program meets. -/
structure Moment where
  ambience : Ambience
  disk : Disk
  refusals : Refusals
  /-- Whether the program is told to stop. -/
  stops : Bool

/-- What there is around the service. -/
def Moment.surroundings (m : Moment) (log : LogSettings) : Service.Surroundings :=
  ⟨m.disk, context log m.ambience⟩

/-- A program over a service that has not polled yet. -/
def fresh (log : LogSettings) (t : Terminator) (sources : List Source) (settings : TailSettings)
    (started : Double) :
    Program := ⟨log, t, Service.ofSources sources settings, started⟩

/-- The first step of a program. -/
def begin (p : Program) (m : Moment) (scene : Scene) : Turn :=
  let service := { p.service with refusals := m.refusals }
  let (service, r) := (if m.stops then service.stop.1 else service).start (m.surroundings p.log)
  { p with service }.settle m.ambience r.output
    { scene with disk := m.disk, notices := scene.notices ++ r.notices }

/-- A later step of a program. -/
def meet (p : Program) (m : Moment) (scene : Scene) : Turn :=
  let p := { p with service := { p.service with refusals := m.refusals } }
  let scene := { scene with disk := m.disk }
  if m.stops then p.stop m.ambience scene else p.advance m.ambience scene

/-- The step of a moment, unless the program has ended. -/
def Turn.next (first : Bool) (t : Turn) (m : Moment) : Turn :=
  match t.result with
  | some _ => t
  | none => if first then t.program.begin m t.scene else t.program.meet m t.scene

/-- The steps of some moments, one after another. -/
def run (p : Program) (scene : Scene) : List Moment → Turn
  | [] => ⟨p, scene, [], none⟩
  | m :: ms => ms.foldl (Turn.next false) (Turn.next true ⟨p, scene, [], none⟩ m)

theorem run_concat (p : Program) (scene : Scene) (ms : List Moment) (m : Moment) :
    p.run scene (ms ++ [m]) = (p.run scene ms).next ms.isEmpty m := by
  cases ms with
  | nil => rfl
  | cons first ms =>
    rw [List.cons_append, run, List.foldl_append]
    rfl

/-- A start of the service is the first step of the program over it. -/
theorem settle_startService (a : Ambience) (log : LogSettings) (t : Terminator) (s : Settings)
    (sources : List Source) (refusals : Refusals) (scene : Scene) :
    ∃ p, (startService a log t s sources refusals scene).start = .running p ∧
      p.settle a (startService a log t s sources refusals scene).output
          (startService a log t s sources refusals scene).scene =
        (fresh log t sources s.tail a.now).begin ⟨a, scene.disk, refusals, false⟩
          { scene with notices := scene.notices ++ openingNotices a log s sources } :=
  ⟨_, rfl, rfl⟩

/-! ### How a step ends -/

/-- The service as it stands before the polls of a step. -/
def facing (p : Program) (m : Moment) : Service :=
  { p.service with refusals := m.refusals, stopping := m.stops }

/-- The first failure in the polls of a step, in the order of the sources. -/
def fault? (first : Bool) (p : Program) (m : Moment) : Option (Text × Failure) :=
  Service.fault? (m.surroundings p.log) (Service.opening first) (p.facing m)

/-- The program has ended because a follower failed: the service is over, the failure counts as the
first fatal error, and it has been recorded unless that was broken off. -/
structure Turn.Fails (t : Turn) (p : Program) (results : Runner) (name : Text)
    (f : Failure) : Prop where
  finished : t.program.service.Over (.failed (.source name f))
  message : t.program.terminator.message? = some (Failure.source name f).message
  result : t.result = some (.ok failureStatus) ∨
    ∃ g, t.result = some (.error g) ∧
    p.terminator.BreaksOff (Failure.source name f).message results g

/-- The program has ended because it was told to: the followers were at a wait and have done nothing
more. -/
structure Turn.Stops (t before : Turn) (m : Moment) : Prop where
  finished : t.program.service.Over .stopped
  members : t.program.service.members = before.program.service.members.map Member.closed
  tally : t.program.service.tally = before.program.service.tally
  output : t.output = []
  result : t.result = some (.ok 0)
  terminator : t.program.terminator = before.program.terminator
  disk : t.scene.disk = m.disk

variable {p : Program} {a : Ambience} {output : Text} {scene : Scene}
  {sources : List Source} {m : Moment}

theorem settle_of_ended_eq_none (h : p.service.ended = none) :
    p.settle a output scene = ⟨p, scene, output, none⟩ := by
  unfold settle
  rw [h]

theorem settle_of_stopped (h : p.service.ended = some .stopped) :
    (p.settle a output scene).program = p ∧ (p.settle a output scene).output = output ∧
      (p.settle a output scene).result = some (.ok 0) ∧
      (p.settle a output scene).scene.disk = scene.disk := by
  unfold settle
  rw [h]
  exact ⟨rfl, rfl, rfl, rfl⟩

theorem record_spec {t : Terminator} (h : t.message? = none) (message : Text) (scene : Scene) :
    (record t message scene).1.message? = some message ∧
      ((record t message scene).2.2 = .ok failureStatus ∨
        ∃ g, (record t message scene).2.2 = .error g ∧ t.BreaksOff message scene.runner g) := by
  obtain ⟨hmessage, hresult⟩ := Terminator.terminate_spec h message scene
  unfold record
  dsimp only
  split
  · next after hdone => exact ⟨hmessage, .inl rfl⟩
  · next g after hbroken =>
    rw [hbroken] at hresult
    exact ⟨hmessage, .inr ⟨g, rfl, hresult⟩⟩

theorem settle_of_failed {name : Text} {f : Failure} (h : p.service.Over (.failed (.source name f)))
    (ht : p.terminator.message? = none) :
    (p.settle a output scene).Fails p scene.runner name f := by
  obtain ⟨hmessage, hresult⟩ := record_spec ht (Failure.source name f).message scene
  have hservice : (p.settle a output scene).program.service = p.service := by
    unfold settle
    split
    · rfl
    · rfl
  refine ⟨?_, ?_, ?_⟩
  · rw [hservice]
    exact h
  · unfold settle
    rw [h.ended]
    exact hmessage
  · unfold settle
    rw [h.ended]
    exact hresult.imp (congrArg some) fun ⟨g, hg, hbroken⟩ => ⟨g, congrArg some hg, hbroken⟩

theorem facing_of_stops (hm : m.stops = true) :
    (Service.stop { p.service with refusals := m.refusals }).1 = p.facing m := by
  rw [facing, hm]
  rfl

theorem facing_of_not_stops (h : p.service.Live sources) (hm : m.stops = false) :
    { p.service with refusals := m.refusals } = p.facing m := by
  rw [facing, hm, ← h.stopping]

/-- Both kinds of steps advance the service and settle what follows. -/
theorem next_eq (first : Bool) {t : Turn} (hr : t.result = none)
    (h : t.program.service.Live sources) (hne : sources ≠ []) (m : Moment) :
    ∃ notices, t.next first m =
      { t.program with service :=
          ((t.program.facing m).advance (m.surroundings t.program.log)
            (Service.opening first)).1 }.settle m.ambience
        ((t.program.facing m).advance (m.surroundings t.program.log)
          (Service.opening first)).2.output
        { t.scene with disk := m.disk, notices } := by
  unfold Turn.next
  rw [hr]
  cases first with
  | true =>
    have hmembers : (t.program.facing m).members ≠ [] := h.members_ne_nil hne
    have hservice :
        (if m.stops then (Service.stop { t.program.service with refusals := m.refusals }).1
        else { t.program.service with refusals := m.refusals }) = t.program.facing m := by
      cases hm : m.stops with
      | true => exact facing_of_stops hm
      | false => exact facing_of_not_stops h hm
    obtain ⟨notices, hstart⟩ := Service.start_of_ne_nil (m.surroundings t.program.log) hmembers
    dsimp only
    unfold begin
    dsimp only
    rw [hservice, hstart]
    exact ⟨_, rfl⟩
  | false =>
    dsimp only
    unfold meet
    cases hm : m.stops with
    | true =>
      unfold stop
      dsimp only
      rw [facing_of_stops hm]
      exact ⟨_, rfl⟩
    | false =>
      unfold advance
      dsimp only
      rw [facing_of_not_stops h hm]
      exact ⟨_, rfl⟩

structure Turn.Going (t : Turn) (p : Program) (scene : Scene) (sources : List Source) : Prop where
  result : t.result = none
  live : t.program.service.Live sources
  terminator : t.program.terminator = p.terminator
  runner : t.scene.runner = scene.runner

theorem live_facing (h : p.service.Live sources) (hm : m.stops = false) :
    (p.facing m).Live sources :=
  ⟨h.ended, hm, h.cancelled, h.sources_eq, h.ready⟩

theorem Turn.next_of_result_ne_none {t : Turn} {first : Bool} (h : t.result ≠ none) :
    t.next first m = t := by
  unfold next
  split
  · rfl
  · next hnone => exact absurd hnone h

theorem Turn.Fails.result_ne_none {t : Turn} {results : Runner} {name : Text} {f : Failure}
    (h : t.Fails p results name f) : t.result ≠ none := by
  obtain hdone | ⟨g, hbroken, -⟩ := h.result
  · simp [hdone]
  · simp [hbroken]

theorem Turn.Stops.result_ne_none {t before : Turn} (h : t.Stops before m) : t.result ≠ none := by
  simp [h.result]

namespace Turn.Going

variable {t : Turn} {first : Bool}

theorem waits (h : t.Going p scene sources) (hnames : (sources.map Source.name).Nodup)
    (hne : sources ≠ []) (hm : m.stops = false) (hfault : fault? first t.program m = none) :
    (t.next first m).Going p scene sources := by
  obtain ⟨notices, hnext⟩ := next_eq first h.result h.live hne m
  have hlive := ((live_facing h.live hm).advance_waits _ hnames hfault).1
  rw [hnext, settle_of_ended_eq_none hlive.ended]
  exact ⟨rfl, hlive, h.terminator, h.runner⟩

theorem fails (h : t.Going p scene sources) (hnames : (sources.map Source.name).Nodup)
    (ht : p.terminator.message? = none) (hne : sources ≠ []) (hm : m.stops = false)
    {name : Text} {f : Failure} (hfault : fault? first t.program m = some (name, f)) :
    (t.next first m).Fails p scene.runner name f := by
  obtain ⟨notices, hnext⟩ := next_eq first h.result h.live hne m
  have hover := (live_facing h.live hm).advance_fails _ hnames hfault
  have hfresh : t.program.terminator.message? = none := by rw [h.terminator, ht]
  rw [hnext]
  obtain ⟨hover', hmessage, hresult⟩ := settle_of_failed
    (p := { t.program with service :=
      ((t.program.facing m).advance (m.surroundings t.program.log) (Service.opening first)).1 })
    hover hfresh
  refine ⟨hover', hmessage, ?_⟩
  rw [← h.terminator, ← h.runner]
  exact hresult

theorem stops (h : t.Going p scene sources) (hne : sources ≠ []) (hm : m.stops = true) :
    (t.next first m).Stops t m := by
  obtain ⟨notices, hnext⟩ := next_eq first h.result h.live hne m
  obtain ⟨hover, hmembers, htally, hwrites, -⟩ := Service.advance_stops (s := t.program.facing m)
    (m.surroundings t.program.log) h.live.ended hm h.live.cancelled h.live.ready
    (Service.silent_opening first)
  obtain ⟨hprogram, houtput, hresult, hdisk⟩ := settle_of_stopped
    (p := { t.program with service :=
      ((t.program.facing m).advance (m.surroundings t.program.log) (Service.opening first)).1 })
    hover.ended
  rw [hnext]
  refine ⟨?_, ?_, ?_, ?_, hresult, ?_, hdisk⟩
  · rwa [hprogram]
  · rw [hprogram]
    exact hmembers
  · rw [hprogram]
    exact htally
  · rw [houtput, Report.output, hwrites]
    rfl
  · rw [hprogram]

theorem stops_of_eq_nil (h : t.Going p scene []) : (t.next true m).Stops t m := by
  have hmembers : t.program.service.members = [] := h.live.members_eq_nil
  obtain ⟨service, hservice, hnil, htally⟩ : ∃ service : Service,
      (if m.stops then (Service.stop { t.program.service with refusals := m.refusals }).1
        else { t.program.service with refusals := m.refusals }) = service ∧ service.members = [] ∧
        service.tally = t.program.service.tally := by
    cases m.stops with
    | true => exact ⟨_, rfl, hmembers, rfl⟩
    | false => exact ⟨_, rfl, hmembers, rfl⟩
  obtain ⟨notices, hstart⟩ := Service.start_of_nil (m.surroundings t.program.log) hnil
  have hover : Service.Over { service with ended := some .stopped } .stopped :=
    Service.over_of_done rfl fun _ hm => by simp [hnil] at hm
  have hnext : t.next true m = t.program.begin m t.scene := by
    unfold Turn.next
    rw [h.result]
    rfl
  rw [hnext]
  unfold begin
  dsimp only
  rw [hservice, hstart]
  refine ⟨hover, ?_, htally, rfl, rfl, rfl, rfl⟩
  show service.members = _
  rw [hnil, hmembers]
  rfl

end Turn.Going

/-! ### Whole runs -/

/-- How a run over some moments goes on at a further one. -/
structure GoesOn (p : Program) (scene : Scene) (sources : List Source) (ms : List Moment)
    (m : Moment) : Prop where
  /-- A program that has not ended was not told to, and follows all sources. -/
  going : (p.run scene ms).result = none →
    (p.run scene ms).program.service.Live sources ∧ ∀ m ∈ ms, m.stops = false
  /-- One that has ended does nothing more. -/
  ended : (p.run scene ms).result ≠ none → p.run scene (ms ++ [m]) = p.run scene ms
  waits : (p.run scene ms).result = none → sources ≠ [] → m.stops = false →
    fault? ms.isEmpty (p.run scene ms).program m = none → (p.run scene (ms ++ [m])).result = none
  fails : ∀ name f, (p.run scene ms).result = none → m.stops = false →
    fault? ms.isEmpty (p.run scene ms).program m = some (name, f) →
      (p.run scene (ms ++ [m])).Fails p scene.runner name f
  stops : (p.run scene ms).result = none → m.stops = true ∨ sources = [] →
    (p.run scene (ms ++ [m])).Stops (p.run scene ms) m

section Fresh

variable {log : LogSettings} {t : Terminator} {settings : TailSettings} {started : Double}
  {ms : List Moment}

theorem fault?_of_eq_nil {first : Bool} (h : p.service.Live []) : fault? first p m = none := by
  have hmembers : p.service.members = [] := h.members_eq_nil
  unfold fault? Service.fault? Service.stepped facing
  rw [hmembers]
  rfl

/-- What holds of a run that has not ended, moment by moment. -/
theorem run_going (ht : t.message? = none) (hnames : (sources.map Source.name).Nodup)
    (hr : ((fresh log t sources settings started).run scene ms).result = none) :
    ((fresh log t sources settings started).run scene ms).Going
      (fresh log t sources settings started) scene sources ∧
      (∀ m ∈ ms, m.stops = false) ∧ (ms ≠ [] → sources ≠ []) := by
  induction ms using List.reverseRecOn with
  | nil =>
    have hlive := Service.live_ofSources sources settings
    exact ⟨⟨rfl, hlive, rfl, rfl⟩, fun _ hm => absurd hm List.not_mem_nil, fun h => absurd rfl h⟩
  | append_singleton ms m ih =>
    rw [run_concat] at hr ⊢
    generalize (fresh log t sources settings started).run scene ms = before at ih hr ⊢
    have hbefore : before.result = none := by
      by_contra hended
      rw [Turn.next_of_result_ne_none hended] at hr
      exact hended hr
    obtain ⟨hgoing, hstops, hne⟩ := ih hbefore
    -- A run without sources has ended after its first step.
    have hsources : sources ≠ [] := by
      rintro rfl
      have hnil : ms = [] := by
        by_contra hms
        exact hne hms rfl
      rw [hnil] at hr
      exact hgoing.stops_of_eq_nil.result_ne_none hr
    have hm : m.stops = false := by
      by_contra hstop
      exact (hgoing.stops hsources (by simpa using hstop)).result_ne_none hr
    have hfault : fault? ms.isEmpty before.program m = none := by
      cases hf : fault? ms.isEmpty before.program m with
      | none => rfl
      | some fault => exact absurd hr (hgoing.fails hnames ht hsources hm hf).result_ne_none
    refine ⟨hgoing.waits hnames hsources hm hfault, fun m' hm' => ?_, fun _ => hsources⟩
    obtain hmem | hmem := List.mem_append.1 hm'
    · exact hstops m' hmem
    · rw [List.mem_singleton.1 hmem]
      exact hm

/-- A run of the program over sources with distinct names, moment by moment: all sources are
followed until a follower fails, whose failure is the one that counts, or until the program is told
to stop.  Then all followers have ended with their files closed, nothing more happens, and the
program has ended: after a failure with status 1 and a record, unless the recording is broken off,
and otherwise with status 0. -/
theorem run_goes_on (ht : t.message? = none) (hnames : (sources.map Source.name).Nodup)
    (ms : List Moment)
    (m : Moment) : (fresh log t sources settings started).GoesOn scene sources ms m where
  going hr := by
    obtain ⟨hgoing, hstops, -⟩ := run_going ht hnames hr
    exact ⟨hgoing.live, hstops⟩
  ended hr := by
    rw [run_concat]
    exact Turn.next_of_result_ne_none hr
  waits hr hne hm hfault := by
    rw [run_concat]
    exact ((run_going ht hnames hr).1.waits hnames hne hm hfault).result
  fails name f hr hm hfault := by
    have hgoing := (run_going ht hnames hr).1
    have hne : sources ≠ [] := by
      rintro rfl
      rw [fault?_of_eq_nil hgoing.live] at hfault
      cases hfault
    rw [run_concat]
    exact hgoing.fails hnames ht hne hm hfault
  stops hr hstops := by
    obtain ⟨hgoing, -, hms⟩ := run_going ht hnames hr
    rw [run_concat]
    by_cases hne : sources = []
    · subst hne
      have hnil : ms = [] := by
        by_contra hms'
        exact hms hms' rfl
      rw [hnil] at hgoing ⊢
      exact hgoing.stops_of_eq_nil
    · exact hgoing.stops hne (hstops.resolve_right hne)

end Fresh

/-- A log of which the first opening is refused, for a program that gives up at one failure. -/
def systemLog : Source := ⟨"system", ⟨.none, ["sys.json"]⟩, false, false, .qmgr⟩

def refusedOpening : Moment :=
  ⟨⟨⟨[]⟩, .ok "mqhost-0", .ofInt 0, true⟩, .empty,
    Refusals.none.set .openFile ⟨0, 1, .permission⟩, false⟩

/-- The program that follows it, ending with a record at a path. -/
def following (record : Path) : Program :=
  fresh ⟨.basic, false, "mqlogmirror"⟩
    { paths := { PathSettings.default with terminationLog := record }, debug := false }
    [systemLog] ⟨.ofRatio false 1 2, 1⟩ (.ofInt 0)

/-- A scene without files. -/
def bareScene : Scene := { disk := .empty, runner := [] }

theorem fails_refusedOpening :
    ((following "termination-log").run bareScene [refusedOpening]).Fails
      (following "termination-log") [] "system"
      (.tail systemLog.path.text (IoError.message ⟨.permission, none⟩)) := by
  have hnames : ([systemLog].map Source.name).Nodup := by simp
  exact (run_goes_on rfl hnames [] refusedOpening).fails _ _ rfl rfl rfl

/-- A record whose path has a NUL in it breaks the recording off. -/
theorem run_unnameableRecord :
    ((following ⟨.none, ["a\x00b"]⟩).run bareScene [refusedOpening]).result =
      some (.error .embeddedNul) := rfl

end Program

end LogRelay
