import LogRelay.Proofs.Accounts
import LogRelay.Proofs.Composition
import LogRelay.Proofs.Members

/-!
# What each source has in a step

While no call is refused, a step of the service does to every member what it would do to that member
alone (`stepMembers_none`), and this is a poll of its follower (`stepMember_waits`): what is written
and counted for a member comes from the events of that poll (`share`), and it is all about its own
source.
-/

namespace LogRelay

/-- The name of the source that a counter is one of. -/
def Counter.source : Counter → Text
  | linesRead source | linesEmitted source | linesSuppressed source _ | decodeFailures source
  | fileReopens source _ => source

namespace Service

/-! ## Reports of events -/

section Reports

variable {ctx : Pipeline.Context} {f f' : Follower} {es : List FollowEvent}

/-- What the events of a run lead to. -/
def share (ctx : Pipeline.Context) (run : Run) : Report :=
  reportEvents ctx run.follower run.events.reverse

theorem reportEvents_append (es es' : List FollowEvent) :
    reportEvents ctx f (es ++ es') = (reportEvents ctx f es).append (reportEvents ctx f es') := by
  simp [reportEvents, Report.append]

/-- What is written and counted for events depends on nothing but the source. -/
theorem reportEvents_congr (h : f.source = f'.source) (es : List FollowEvent) :
    (reportEvents ctx f es).writes = (reportEvents ctx f' es).writes ∧
      (reportEvents ctx f es).counters = (reportEvents ctx f' es).counters := by
  have hevent (e : FollowEvent) : (reportEvent ctx f e).writes = (reportEvent ctx f' e).writes ∧
      (reportEvent ctx f e).counters = (reportEvent ctx f' e).counters := by
    cases e <;> simp [reportEvent, h]
  simp [reportEvents, List.flatMap_map, hevent]

theorem share_behind (run : Run) (es : List FollowEvent) (cs : List Call) :
    share ctx (run.behind es cs) =
      (reportEvents ctx run.follower es.reverse).append (share ctx run) := by
  have hreverse : (run.events ++ es).reverse = es.reverse ++ run.events.reverse :=
    List.reverse_append
  show reportEvents ctx run.follower (run.events ++ es).reverse = _
  rw [hreverse, reportEvents_append]
  rfl

/-- The calls of the lines that events offer are all that is written for them. -/
theorem writes_reportEvents (ctx : Pipeline.Context) (f : Follower) (es : List FollowEvent) :
    (reportEvents ctx f es).writes =
      (((es.filterMap FollowEvent.offered?).map (Pipeline.Call.mk ctx f.source)).filter
        Pipeline.Call.isPrinted).map fun call => call.rendered ++ ("\n" : Text) := by
  induction es with
  | nil => rfl
  | cons e es ih =>
    have hcons : (reportEvents ctx f (e :: es)).writes =
        (reportEvent ctx f e).writes ++ (reportEvents ctx f es).writes := rfl
    have hline (t : Text) (he : e.offered? = some t) :
        (reportEvent ctx f e).writes = (Pipeline.Call.mk ctx f.source t).report.writes := by
      cases e <;> cases he <;> rfl
    rw [hcons, ih]
    cases he : e.offered? with
    | some t =>
      rw [hline t he, Pipeline.Call.writes_report, List.filterMap_cons_some he, List.map_cons,
        List.filter_cons]
      split
      · rfl
      · rfl
    | none =>
      have hnone : (reportEvent ctx f e).writes = [] := by
        cases e <;> first | rfl | cases he
      rw [hnone, List.filterMap_cons_none he, List.nil_append]

theorem source_of_mem_counters {c : Counter} (hc : c ∈ (reportEvents ctx f es).counters) :
    c.source = f.source.name := by
  obtain ⟨r, hr, hc⟩ := List.mem_flatMap.1 hc
  obtain ⟨e, -, rfl⟩ := List.mem_map.1 hr
  have hline (t : Text) (hc : c ∈ (Pipeline.process ctx f.source t).counters f.source) :
      c.source = f.source.name := by
    unfold Pipeline.Outcome.counters at hc
    cases hverdict : (Pipeline.process ctx f.source t).verdict <;>
      cases hfailed : (Pipeline.process ctx f.source t).decodeFailed <;>
      simp [hverdict, hfailed] at hc <;> rcases hc with rfl | rfl | rfl <;> rfl
  cases e with
  | line t => exact hline t hc
  | lineRefused t => exact hline t hc
  | reopened reason =>
    obtain rfl := List.mem_singleton.1 hc
    rfl
  | _ => cases hc

end Reports

/-! ## Steps without refusals -/

theorem eq_none_of_leaves {rs : Refusals} (h : Refusals.none.Leaves rs) : rs = .none := by
  have hnext : rs.next = fun _ => [] := by
    funext kind
    exact List.suffix_nil.1 (h kind)
  cases rs
  rw [Refusals.mk.injEq]
  exact hnext

/-- What is written in a step, each text with the source that it is for. -/
def written (sur : Surroundings) (stopping : Bool) (begun : List FollowEvent) :
    List Member → Refusals → List (Source × Text)
  | [], _ => []
  | m :: ms, rs =>
    let (_, rs', r) := stepMember sur stopping begun m rs
    r.writes.map (m.source, ·) ++ written sur stopping begun ms rs'

section Members

variable (sur : Surroundings) (stopping : Bool) {begun : List FollowEvent} {m : Member}
  {ms : List Member}

theorem written_snd (begun : List FollowEvent) (ms : List Member) (rs : Refusals) :
    (written sur stopping begun ms rs).map Prod.snd =
    (stepMembers sur stopping begun ms rs).2.2.writes := by
  induction ms generalizing rs with
  | nil => rfl
  | cons m ms ih =>
    have hwrites : (stepMembers sur stopping begun (m :: ms) rs).2.2.writes =
        (stepMember sur stopping begun m rs).2.2.writes ++
          (stepMembers sur stopping begun ms (stepMember sur stopping begun m rs).2.1).2.2.writes :=
            rfl
    rw [hwrites, ← ih, written]
    simp [List.map_map, Function.comp_def]

theorem written_of_done {ms : List Member} (h : ∀ m ∈ ms, m.Done) (rs : Refusals) :
    written sur stopping begun ms rs = [] := by
  induction ms with
  | nil => rfl
  | cons m ms ih =>
    rw [written, stepMember_of_not_isRunning sur rs (h m List.mem_cons_self).isRunning]
    exact ih fun m' hm => h m' (List.mem_cons_of_mem m hm)

theorem written_of_stopping {ms : List Member} (hbegun : ∀ e ∈ begun, e.Silent)
    (h : ∀ m ∈ ms, m.Ready ∨ m.Done) (rs : Refusals) : written sur true begun ms rs = [] := by
  have hsnd := written_snd sur true begun ms rs
  rw [(stepMembers_stopped sur rs hbegun h).2.1] at hsnd
  exact List.map_eq_nil_iff.1 hsnd

theorem stepMember_leaves {rs : Refusals} (hbegun : ∀ e ∈ begun, e.Silent) (h : m.Ready) :
    rs.Leaves (stepMember sur stopping begun m rs).2.1 := by
  cases stopping with
  | true => exact (stepMember_stopped sur rs hbegun h).2.1
  | false => exact (stepMember_polled sur rs h).2

/-- While no call is refused, every member takes its own step. -/
theorem stepMembers_none (hbegun : ∀ e ∈ begun, e.Silent) (h : ∀ m ∈ ms, m.Ready) :
    (stepMembers sur stopping begun ms .none).1 =
      ms.map (fun m => (stepMember sur stopping begun m .none).1) ∧
      written sur stopping begun ms .none =
        ms.flatMap (fun m => (stepMember sur stopping begun m .none).2.2.writes.map (m.source, ·)) ∧
      (stepMembers sur stopping begun ms .none).2.2.counters =
        ms.flatMap fun m => (stepMember sur stopping begun m .none).2.2.counters := by
  induction ms with
  | nil => exact ⟨rfl, rfl, rfl⟩
  | cons m ms ih =>
    -- The refusals that the first member leaves to the others are none.
    have hnone := eq_none_of_leaves (stepMember_leaves sur stopping hbegun (h m List.mem_cons_self))
    obtain ⟨hmembers, hwritten, hcounters⟩ := ih fun m' hm => h m' (List.mem_cons_of_mem m hm)
    rw [stepMembers_cons, written]
    dsimp only
    rw [hnone]
    refine ⟨?_, ?_, ?_⟩
    · rw [hmembers, List.map_cons]
    · rw [List.flatMap_cons, hwritten]
    · rw [List.flatMap_cons, ← hcounters]
      rfl

end Members

/-! ## Polls of a member -/

/-- What the follower of a source meets in a step in which no call is refused. -/
def occasion (sur : Surroundings) (source : Source) : Occasion :=
  ⟨sur.disk.view source.path.text, .none, taker sur.context source⟩

section Polls

variable {sur : Surroundings} {begun : List FollowEvent} {run : Run}

/-- The poll of a member, apart from what the run was before and what the step begins with. -/
theorem exists_poll (sur : Surroundings) (run : Run) : ∃ p : Poll,
    Follower.meet run (occasion sur run.follower.source) =
      ⟨p.run.behind run.events run.calls, p.ending⟩ ∧
      ∀ begun, Follower.poll (sur.disk.view run.follower.source.path.text)
        (taker sur.context run.follower.source)
        ⟨run.follower, .none, begun, []⟩ = ⟨p.run.behind begun [], p.ending⟩ :=
  ⟨_, Follower.poll_behind ⟨run.follower, .none, [], []⟩ run.events run.calls,
    fun begun => Follower.poll_behind ⟨run.follower, .none, [], []⟩ begun []⟩

section

variable {source : Source} (hs : run.follower.source = source)

include hs

theorem stepMember_fails {f : Failure}
    (h : (Follower.meet run (occasion sur source)).ending = .fails f) :
    (stepMember sur false begun ⟨run.follower, .running⟩ .none).1.fault? ≠ none := by
  subst hs
  obtain ⟨p, hmeet, hpoll⟩ := exists_poll sur run
  rw [hmeet] at h
  have hfails : p.ending = .fails f := h
  unfold stepMember
  dsimp only [Member.isRunning, Member.source]
  rw [hpoll begun, hfails]
  exact nofun

variable (hbegun : ∀ e ∈ begun, e.Silent) (hp : 10 ∉ run.follower.pending)
  (h : (Follower.meet run (occasion sur source)).ending = .waits)

include hbegun hp h

/-- A member whose follower goes on, with what is written and counted for it. -/
theorem stepMember_waits :
    (stepMember sur false begun ⟨run.follower, .running⟩ .none).1 =
        ⟨(Follower.meet run (occasion sur source)).run.follower, .running⟩ ∧
      (share sur.context (Follower.meet run (occasion sur source)).run).writes =
        (share sur.context run).writes ++
        (stepMember sur false begun ⟨run.follower, .running⟩ .none).2.2.writes ∧
      (share sur.context (Follower.meet run (occasion sur source)).run).counters =
        (share sur.context run).counters ++
          (stepMember sur false begun ⟨run.follower, .running⟩ .none).2.2.counters := by
  subst hs
  have hsource : (Follower.meet run (occasion sur run.follower.source)).run.follower.source =
      run.follower.source :=
    (Follower.meet_continues hp _).source
  -- One poll from no events at all: behind it stand the events of the run, or those that the step
  -- begins with.
  obtain ⟨p, hmeet, hpoll⟩ := exists_poll sur run
  rw [hmeet] at h hsource ⊢
  have hstep : stepMember sur false begun ⟨run.follower, .running⟩ .none =
      (⟨p.run.follower, .running⟩, p.run.refusals, share sur.context (p.run.behind begun [])) := by
    have hwaits : p.ending = .waits := h
    unfold stepMember
    dsimp only [Member.isRunning, Member.source]
    rw [hpoll begun, hwaits]
    rfl
  obtain ⟨hwrites, hcounters⟩ :
      (reportEvents sur.context p.run.follower begun.reverse).writes = [] ∧
      (reportEvents sur.context p.run.follower begun.reverse).counters = [] :=
    reportEvents_of_silent fun e he => hbegun e (List.mem_reverse.1 he)
  obtain ⟨hwrites', hcounters'⟩ :
      (reportEvents sur.context p.run.follower run.events.reverse).writes =
        (share sur.context run).writes ∧
        (reportEvents sur.context p.run.follower run.events.reverse).counters =
        (share sur.context run).counters :=
    reportEvents_congr hsource _
  rw [hstep, share_behind, share_behind]
  refine ⟨rfl, ?_, ?_⟩
  · simp only [Report.append, hwrites, hwrites', List.nil_append]
  · simp only [Report.append, hcounters, hcounters', List.nil_append]

theorem source_of_mem_counters_stepMember {c : Counter}
    (hc : c ∈ (stepMember sur false begun ⟨run.follower, .running⟩ .none).2.2.counters) :
    c.source = source.name := by
  obtain ⟨-, -, hcounters⟩ := stepMember_waits hs hbegun hp h
  have hmem : c ∈ (share sur.context (Follower.meet run (occasion sur source)).run).counters := by
    rw [hcounters]
    exact List.mem_append_right _ hc
  rw [← hs, ← (Follower.meet_continues hp (occasion sur source)).source]
  exact source_of_mem_counters hmem

end

end Polls

end Service

end LogRelay
