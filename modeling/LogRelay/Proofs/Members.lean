import LogRelay.Proofs.Json
import LogRelay.Proofs.Running
import LogRelay.Service

/-!
# Steps of the service

What a step does to the members of a service, one after another.  A member that is followed is
polled: it goes on, or it has failed and its file is closed (`stepMember_polled`).  If the service
is to stop, its file is closed without another poll (`stepMember_stopped`).  A service of which all
sources are followed (`Service.Live`) goes on in a step, has failed with the first failure in the
order of its sources, or has stopped; when it has ended, nothing happens any more (`Service.Over`).
-/

namespace LogRelay

namespace Follower

/-- Following ends whichever calls are refused: the file is closed, and nothing else is changed. -/
theorem stop_spec (run : Run) :
    (stop run).follower = { run.follower with handle := none } ∧
      run.refusals.Leaves (stop run).refusals ∧
      ((stop run).events = .stopped :: run.events ∨
        ∃ error, (stop run).events = .stopped :: .closeRefused error :: run.events) := by
  have h : Work.wp (Work.close >>= fun _ => Work.emit .stopped)
      (fun _ run' => run'.follower = { run.follower with handle := none } ∧
        run.refusals.Leaves run'.refusals ∧
        (run'.events = .stopped :: run.events ∨
          ∃ error, run'.events = .stopped :: .closeRefused error :: run.events))
      (fun _ _ => False) run := by
    rw [Work.wp_bind]
    refine Work.wp_close_any.mono (fun _ run' hclosed => ?_) fun _ _ h => h
    obtain ⟨hfollower, hleaves, hevents⟩ := hclosed
    refine ⟨hfollower, hleaves, ?_⟩
    obtain hevents | ⟨error, hevents⟩ := hevents
    · exact .inl (congrArg (FollowEvent.stopped :: ·) hevents)
    · exact .inr ⟨error, congrArg (FollowEvent.stopped :: ·) hevents⟩
  unfold Work.wp at h
  unfold stop
  dsimp only at h ⊢
  split at h
  · next run' hok =>
    rw [hok]
    exact h
  · exact h.elim

end Follower

/-! ## What events lead to -/

namespace FollowEvent

/-- Nothing is written or counted for the event. -/
def Silent (e : FollowEvent) : Prop := e.offered? = none ∧ e.reopened? = none

end FollowEvent

namespace Service

variable {ctx : Pipeline.Context} {f : Follower}

theorem reportEvent_of_silent {e : FollowEvent} (h : e.Silent) :
    (reportEvent ctx f e).writes = [] ∧ (reportEvent ctx f e).counters = [] := by
  obtain ⟨hoffered, hreopened⟩ := h
  cases e with
  | line t => cases hoffered
  | lineRefused t => cases hoffered
  | reopened reason => cases hreopened
  | _ => exact ⟨rfl, rfl⟩

theorem reportEvents_of_silent {es : List FollowEvent} (h : ∀ e ∈ es, e.Silent) :
    (reportEvents ctx f es).writes = [] ∧ (reportEvents ctx f es).counters = [] := by
  unfold reportEvents
  dsimp only
  rw [List.flatMap_eq_nil_iff, List.flatMap_eq_nil_iff, List.forall_mem_map, List.forall_mem_map]
  exact ⟨fun e he => (reportEvent_of_silent (h e he)).1,
    fun e he => (reportEvent_of_silent (h e he)).2⟩

end Service

/-! ## Members -/

namespace Member

/-- The source is followed, and what is pending is no line yet. -/
structure Ready (m : Member) : Prop where
  progress : m.progress = .running
  pending : 10 ∉ m.follower.pending

/-- The source is not followed any more, and the file is closed. -/
structure Done (m : Member) : Prop where
  isRunning : m.isRunning = false
  handle : m.follower.handle = none

/-- The member after it was told to end at a wait. -/
def closed (m : Member) : Member := ⟨{ m.follower with handle := none }, .ended⟩

/-- The failure that following ended with, under the name of the source. -/
def fault? (m : Member) : Option (Text × Failure) :=
  match m.progress with
  | .failed f => some (m.source.name, f)
  | _ => none

theorem closed_done (m : Member) : m.closed.Done := ⟨rfl, rfl⟩

theorem Ready.isRunning {m : Member} (h : m.Ready) : m.isRunning := by
  rw [Member.isRunning, h.progress]

/-- What becomes of a member in a poll. -/
structure Polled (m m' : Member) : Prop where
  source : m'.source = m.source
  next : m'.Ready ∨ m'.Done ∧ m'.fault? ≠ none

end Member

namespace Service

variable (sur : Surroundings) {begun : List FollowEvent} {m : Member} (rs : Refusals)

/-- One poll: the follower goes on, or it has failed and the file is closed. -/
theorem stepMember_polled (h : m.Ready) :
    m.Polled (stepMember sur false begun m rs).1 ∧
    rs.Leaves (stepMember sur false begun m rs).2.1 := by
  have hworks : Run.Works ⟨m.follower, rs, begun, []⟩
      (Follower.poll (sur.disk.view m.source.path.text) (taker sur.context m.source)
        ⟨m.follower, rs, begun, []⟩).run :=
    Follower.turns_works h.pending _
  unfold stepMember
  rw [h.isRunning]
  dsimp only
  generalize Follower.poll (sur.disk.view m.source.path.text) (taker sur.context m.source)
    ⟨m.follower, rs, begun, []⟩ = p at hworks
  obtain ⟨hstopped, hleaves, -⟩ := Follower.stop_spec p.run
  have hsource : (Follower.stop p.run).follower.source = m.follower.source := by
    rw [hstopped]
    exact hworks.source
  have hhandle : (Follower.stop p.run).follower.handle = none := by rw [hstopped]
  cases hending : p.ending with
  | fails f => exact ⟨⟨hsource, .inr ⟨⟨rfl, hhandle⟩, nofun⟩⟩, hworks.leaves.trans hleaves⟩
  | waits => exact ⟨⟨hworks.source, .inl ⟨rfl, hworks.pending⟩⟩, hworks.leaves⟩
  | unfinished => exact ⟨⟨hworks.source, .inl ⟨rfl, hworks.pending⟩⟩, hworks.leaves⟩

theorem stepMember_stopped (hbegun : ∀ e ∈ begun, e.Silent) (h : m.Ready) :
    (stepMember sur true begun m rs).1 = m.closed ∧ rs.Leaves (stepMember sur true begun m rs).2.1 ∧
      (stepMember sur true begun m rs).2.2.writes = [] ∧
      (stepMember sur true begun m rs).2.2.counters = [] := by
  obtain ⟨hfollower, hleaves, hevents⟩ := Follower.stop_spec ⟨m.follower, rs, begun, []⟩
  unfold stepMember
  rw [h.isRunning]
  dsimp only
  unfold finish
  have hsilent : ∀ e ∈ (Follower.stop ⟨m.follower, rs, begun, []⟩).events.reverse, e.Silent := by
    intro e he
    obtain hevents | ⟨error, hevents⟩ := hevents
    · simp only [hevents, List.mem_reverse, List.mem_cons] at he
      obtain rfl | he := he
      · exact ⟨rfl, rfl⟩
      · exact hbegun e he
    · simp only [hevents, List.mem_reverse, List.mem_cons] at he
      obtain rfl | rfl | he := he
      · exact ⟨rfl, rfl⟩
      · exact ⟨rfl, rfl⟩
      · exact hbegun e he
  refine ⟨?_, hleaves, reportEvents_of_silent hsilent⟩
  show Member.mk (Follower.stop ⟨m.follower, rs, begun, []⟩).follower .ended = m.closed
  rw [hfollower]
  rfl

theorem stepMember_of_not_isRunning {stopping : Bool} (h : m.isRunning = false) :
    stepMember sur stopping begun m rs = (m, rs, {}) := by
  unfold stepMember
  rw [h]
  rfl

theorem stepMembers_cons {stopping : Bool} {ms : List Member} :
    stepMembers sur stopping begun (m :: ms) rs =
      let (m', rs', r) := stepMember sur stopping begun m rs
      let (ms', rs'', r') := stepMembers sur stopping begun ms rs'
      (m' :: ms', rs'', r.append r') := rfl

theorem stepMembers_polled {ms : List Member} (h : ∀ m ∈ ms, m.Ready) :
    List.Forall₂ Member.Polled ms (stepMembers sur false begun ms rs).1 := by
  induction ms generalizing rs with
  | nil => exact .nil
  | cons m ms ih =>
    rw [stepMembers_cons]
    have hms := fun m' hm => h m' (List.mem_cons_of_mem m hm)
    exact .cons (stepMember_polled sur rs (h m List.mem_cons_self)).1 (ih _ hms)

/-- Every member that is still followed is told to end. -/
theorem stepMembers_stopped {ms : List Member} (hbegun : ∀ e ∈ begun, e.Silent)
    (h : ∀ m ∈ ms, m.Ready ∨ m.Done) :
    (stepMembers sur true begun ms rs).1 = ms.map (fun m => if m.isRunning then m.closed else m) ∧
      (stepMembers sur true begun ms rs).2.2.writes = [] ∧
      (stepMembers sur true begun ms rs).2.2.counters = [] := by
  induction ms generalizing rs with
  | nil => exact ⟨rfl, rfl, rfl⟩
  | cons m ms ih =>
    have hms := fun m' hm => h m' (List.mem_cons_of_mem m hm)
    rw [stepMembers_cons]
    obtain hready | hdone := h m List.mem_cons_self
    · obtain ⟨hclosed, -, hwrites, hcounters⟩ := stepMember_stopped sur rs hbegun hready
      obtain ⟨hrest, hwrites', hcounters'⟩ := ih (stepMember sur true begun m rs).2.1 hms
      refine ⟨?_, ?_, ?_⟩
      · rw [List.map_cons, hready.isRunning, ← hrest, ← hclosed]
        rfl
      · exact List.append_eq_nil_iff.2 ⟨hwrites, hwrites'⟩
      · exact List.append_eq_nil_iff.2 ⟨hcounters, hcounters'⟩
    · rw [stepMember_of_not_isRunning sur rs hdone.isRunning]
      obtain ⟨hrest, hwrites', hcounters'⟩ := ih rs hms
      refine ⟨?_, ?_, ?_⟩
      · rw [List.map_cons, hdone.isRunning, ← hrest]
        rfl
      · exact List.append_eq_nil_iff.2 ⟨rfl, hwrites'⟩
      · exact List.append_eq_nil_iff.2 ⟨rfl, hcounters'⟩

end Service

/-! ## The failure that counts -/

namespace Service

variable (sur : Surroundings) {begun : List FollowEvent} {s : Service} {sources : List Source}

/-- Among members with distinct names every failure counts. -/
theorem failures_eq {ms : List Member} (h : (ms.map (·.source.name)).Nodup) :
    failures ms = ms.filterMap Member.fault? := by
  have hkeys : ((ms.map fun m => (m.source.name, m)).map Prod.fst).Nodup := by
    rwa [List.map_map]
  rw [failures, tracked, Json.collapse_of_nodup hkeys, List.filterMap_map]
  rfl

/-! ## Steps of the service -/

/-- All sources are followed. -/
structure Live (s : Service) (sources : List Source) : Prop where
  ended : s.ended = none
  stopping : s.stopping = false
  cancelled : s.cancelled = false
  sources_eq : s.members.map Member.source = sources
  ready : ∀ m ∈ s.members, m.Ready

theorem live_ofSources (sources : List Source) (settings : TailSettings) :
    (ofSources sources settings).Live sources where
  ended := rfl
  stopping := rfl
  cancelled := rfl
  sources_eq := by
    show (sources.map _).map Member.source = sources
    rw [List.map_map]
    exact List.map_id' sources
  ready m hm := by
    obtain ⟨source, -, rfl⟩ := List.mem_map.1 hm
    exact ⟨rfl, List.not_mem_nil⟩

/-- The service has ended: every follower has, with its file closed, and nothing happens any
more. -/
structure Over (s : Service) (e : Ended) : Prop where
  ended : s.ended = some e
  isRunning : s.isRunning = false
  done : ∀ m ∈ s.members, m.Done
  active : s.active = 0
  quiet : ∀ sur begun, s.advance sur begun = (s, {})

theorem over_of_done {e : Ended} (he : s.ended = some e)
    (hdone : ∀ m ∈ s.members, m.Done) : s.Over e where
  ended := he
  isRunning := by rw [isRunning, he]; rfl
  done := hdone
  active := by
    rw [active, List.length_eq_zero_iff, List.filter_eq_nil_iff]
    intro m hm
    rw [(hdone m hm).isRunning]
    exact Bool.false_ne_true
  quiet sur begun := by
    rw [advance, he]
    rfl

/-- The service after the polls of a step, and what was reported of them. -/
def stepped (sur : Surroundings) (begun : List FollowEvent) (s : Service) : Service × Report :=
  let (members, refusals, r) := stepMembers sur s.stopping begun s.members s.refusals
  ({ s with members, refusals }, r)

/-- The first failure in the polls of a step, in the order of the sources. -/
def fault? (sur : Surroundings) (begun : List FollowEvent)
    (s : Service) : Option (Text × Failure) :=
  (stepped sur begun s).1.members.findSome? Member.fault?

theorem advance_eq (h : s.ended = none) :
    s.advance sur begun =
      let (s', r) := settle sur (stepped sur begun s).1 (stepped sur begun s).2
      (s'.count r, r) := by
  unfold advance stepped
  rw [h]
  rfl

theorem settle_of_failures_eq_nil {r : Report} (hs : s.stopping = false)
    (hf : failures s.members = []) : settle sur s r = (s, r) := by
  unfold settle
  rw [hs, hf]
  rfl

theorem settle_of_failures_eq_cons (r : Report) {name : Text} {f : Failure}
    {rest : List (Text × Failure)}
    (hs : s.stopping = false) (hf : failures s.members = (name, f) :: rest) :
    (settle sur s r).1.members = (stepMembers sur true [] s.members s.refusals).1 ∧
      (settle sur s r).1.ended = some (.failed (.source name f)) := by
  unfold settle
  rw [hs, hf]
  exact ⟨rfl, rfl⟩

theorem settle_of_stopping {r : Report} (hs : s.stopping = true) (hc : s.cancelled = false) :
    settle sur s r =
      ({ s with ended := some .stopped }, r.append { notices := [.serviceStopped] }) := by
  unfold settle
  rw [hs, hc]
  rfl

theorem map_source_of_polled {ms ms' : List Member} (h : List.Forall₂ Member.Polled ms ms') :
    ms'.map Member.source = ms.map Member.source := by
  induction h with
  | nil => rfl
  | cons hm _ ih => rw [List.map_cons, List.map_cons, hm.source, ih]

theorem next_of_polled {ms ms' : List Member} (h : List.Forall₂ Member.Polled ms ms') :
    ∀ m ∈ ms', m.Ready ∨ m.Done ∧ m.fault? ≠ none := by
  induction h with
  | nil => exact fun _ hm => absurd hm List.not_mem_nil
  | cons hm _ ih =>
    intro m hmem
    obtain rfl | hmem := List.mem_cons.1 hmem
    · exact hm.next
    · exact ih m hmem

namespace Live

theorem members_ne_nil (h : s.Live sources) (hne : sources ≠ []) : s.members ≠ [] := by
  intro hnil
  rw [← h.sources_eq, hnil] at hne
  exact hne rfl

theorem members_eq_nil (h : s.Live []) : s.members = [] := List.map_eq_nil_iff.1 h.sources_eq

theorem polled (h : s.Live sources) :
    List.Forall₂ Member.Polled s.members (stepped sur begun s).1.members := by
  unfold stepped
  rw [h.stopping]
  exact stepMembers_polled sur _ h.ready

theorem sources_stepped (h : s.Live sources) :
    (stepped sur begun s).1.members.map Member.source = sources :=
  (map_source_of_polled (h.polled sur)).trans h.sources_eq

theorem failures_stepped (h : s.Live sources) (hnames : (sources.map Source.name).Nodup) :
    failures (stepped sur begun s).1.members =
      (stepped sur begun s).1.members.filterMap Member.fault? := by
  refine failures_eq ?_
  rwa [← h.sources_stepped sur, List.map_map] at hnames

/-- In a step in which no follower fails every member is polled. -/
theorem advance_waits (h : s.Live sources) (hnames : (sources.map Source.name).Nodup)
    (hfault : fault? sur begun s = none) :
    (s.advance sur begun).1.Live sources ∧
      s.advance sur begun =
        ((stepped sur begun s).1.count (stepped sur begun s).2, (stepped sur begun s).2) := by
  have hnone := List.findSome?_eq_none_iff.1 hfault
  have hfailures : failures (stepped sur begun s).1.members = [] := by
    rw [h.failures_stepped sur hnames, List.filterMap_eq_nil_iff]
    exact hnone
  have hready : ∀ m ∈ (stepped sur begun s).1.members, m.Ready := fun m hm =>
    (next_of_polled (h.polled sur) m hm).resolve_right fun hdone => hdone.2 (hnone m hm)
  have hstopping : (stepped sur begun s).1.stopping = false := h.stopping
  rw [advance_eq sur h.ended, settle_of_failures_eq_nil sur hstopping hfailures]
  exact ⟨⟨h.ended, h.stopping, h.cancelled, h.sources_stepped sur, hready⟩, rfl⟩

/-- The first failure in a step ends the service. -/
theorem advance_fails (h : s.Live sources) (hnames : (sources.map Source.name).Nodup)
    {name : Text} {f : Failure} (hfault : fault? sur begun s = some (name, f)) :
    (s.advance sur begun).1.Over (.failed (.source name f)) := by
  -- The failure that counts is the first among all, and these are found member by member.
  rw [fault?, ← List.head?_filterMap, ← h.failures_stepped sur hnames,
    List.head?_eq_some_iff] at hfault
  obtain ⟨rest, hfailures⟩ := hfault
  have hnext : ∀ m ∈ (stepped sur begun s).1.members, m.Ready ∨ m.Done := fun m hm =>
    (next_of_polled (h.polled sur) m hm).imp id And.left
  have hstopping : (stepped sur begun s).1.stopping = false := h.stopping
  obtain ⟨hmembers, hended⟩ :=
    settle_of_failures_eq_cons sur (stepped sur begun s).2 hstopping hfailures
  rw [advance_eq sur h.ended]
  refine over_of_done hended fun m (hm : m ∈ (settle sur _ _).1.members) => ?_
  rw [hmembers, (stepMembers_stopped sur _ (fun _ he => absurd he List.not_mem_nil) hnext).1,
    List.mem_map] at hm
  obtain ⟨m', hmem, rfl⟩ := hm
  obtain hready | hdone := hnext m' hmem
  · rw [hready.isRunning]
    exact m'.closed_done
  · rw [hdone.isRunning]
    exact hdone

end Live

theorem advance_stops (hended : s.ended = none) (hstopping : s.stopping = true)
    (hcancelled : s.cancelled = false)
    (hready : ∀ m ∈ s.members, m.Ready) (hbegun : ∀ e ∈ begun, e.Silent) :
    (s.advance sur begun).1.Over .stopped ∧
      (s.advance sur begun).1.members = s.members.map Member.closed ∧
      (s.advance sur begun).1.tally = s.tally ∧ (s.advance sur begun).2.writes = [] ∧
      (s.advance sur begun).2.counters = [] := by
  obtain ⟨hmembers, hwrites, hcounters⟩ := stepMembers_stopped sur s.refusals hbegun
    fun m hm => .inl (hready m hm)
  have hclosed : s.members.map (fun m => if m.isRunning then m.closed else m) =
      s.members.map Member.closed :=
    List.map_congr_left fun m hm => by rw [(hready m hm).isRunning]; rfl
  rw [hclosed] at hmembers
  rw [advance_eq sur hended, settle_of_stopping sur (by exact hstopping) (by exact hcancelled)]
  unfold stepped
  rw [hstopping]
  refine ⟨over_of_done rfl fun m hm => ?_, hmembers, ?_, ?_, ?_⟩
  · have hm' : m ∈ (stepMembers sur true begun s.members s.refusals).1 := hm
    rw [hmembers, List.mem_map] at hm'
    obtain ⟨m', -, rfl⟩ := hm'
    exact m'.closed_done
  · show Tally.raiseAll s.tally
      ((stepMembers sur true begun s.members s.refusals).2.2.counters ++ []) = s.tally
    rw [hcounters]
    rfl
  · show (stepMembers sur true begun s.members s.refusals).2.2.writes ++ [] = []
    rw [hwrites]
    rfl
  · show (stepMembers sur true begun s.members s.refusals).2.2.counters ++ [] = []
    rw [hcounters]
    rfl

/-! ### The first step -/

/-- The events that a step begins with. -/
def opening (first : Bool) : List FollowEvent := if first then [.started] else []

theorem silent_opening (first : Bool) : ∀ e ∈ opening first, e.Silent := by
  cases first with
  | false => exact fun _ he => absurd he List.not_mem_nil
  | true =>
    intro e he
    rw [List.mem_singleton.1 he]
    exact ⟨rfl, rfl⟩

theorem start_of_ne_nil (h : s.members ≠ []) :
    ∃ notices, s.start sur =
      ((s.advance sur [.started]).1, Report.append { notices } (s.advance sur [.started]).2) := by
  unfold start
  split
  · next hnil => exact absurd hnil h
  · exact ⟨_, rfl⟩

theorem start_of_nil (h : s.members = []) :
    ∃ notices, s.start sur = ({ s with ended := some .stopped }, { notices }) := by
  unfold start
  split
  · exact ⟨_, rfl⟩
  · next hne => exact absurd h hne

end Service

end LogRelay
