import LogRelay.Proofs.Endings
import LogRelay.Proofs.Shares
import Mathlib.Data.List.Nodup
import Mathlib.Data.List.TakeWhile

/-!
# Sources do not interfere

A service over some sources is run over some moments (`course`), and so is each follower on its own
(`followed`).  As long as these all go on, the service is at every moment what they are together
(`Course.Agrees`).  The same is true of a service over one of the sources alone, so a run over
several sources consists of the runs over each of them (`course_independent`): every source has the
same state, counters and texts as alone, and the output is an interleaving of these texts.
-/

namespace LogRelay

namespace Service

/-! ## Runs of the service -/

/-- What a step of the service meets. -/
structure Moment where
  disk : Disk
  /-- Whether the service is asked to stop. -/
  stops : Bool

/-- A service with what it has written. -/
structure Course where
  service : Service
  /-- The texts that were written to the console. -/
  writes : List Text
  /-- What was written for the lines of each source. -/
  written : List (Source × Text)

namespace Course

/-- The service before the polls of a step, in which no call is refused. -/
def facing (c : Course) (m : Moment) : Service :=
  { (if m.stops then c.service.stop.1 else c.service) with refusals := .none }

/-- One step, the first one or a later one. -/
def next (ctx : Pipeline.Context) (first : Bool) (c : Course) (m : Moment) : Course :=
  let sur : Surroundings := ⟨m.disk, ctx⟩
  let s := c.facing m
  let (service, r) := if first then s.start sur else s.advance sur []
  ⟨service, c.writes ++ r.writes,
    c.written ++ Service.written sur s.stopping (opening first) s.members s.refusals⟩

/-- The steps of some moments, one after another. -/
def run (ctx : Pipeline.Context) (c : Course) : List Moment → Course
  | [] => c
  | m :: ms => ms.foldl (next ctx false) (c.next ctx true m)

end Course

/-- The run of a service over some sources. -/
def course (ctx : Pipeline.Context) (settings : TailSettings) (sources : List Source)
    (ms : List Moment) : Course :=
  Course.run ctx ⟨ofSources sources settings, [], []⟩ ms

/-- The run of the follower of a source on its own. -/
def followed (ctx : Pipeline.Context) (settings : TailSettings) (ms : List Moment)
    (source : Source) : Poll :=
  Follower.follow (Follower.start source settings.maxFailures)
    (ms.map fun m => occasion ⟨m.disk, ctx⟩ source)

/-- The moments before the service is asked to stop. -/
def heard (ms : List Moment) : List Moment := ms.takeWhile fun m => !m.stops

/-- The texts that were written for the lines of a source. -/
def textsOf (source : Source) (written : List (Source × Text)) : List Text :=
  (written.filter fun entry => entry.1 = source).map Prod.snd

variable {ctx : Pipeline.Context} {settings : TailSettings} {sources : List Source}
  {ms ms' : List Moment} {m : Moment} {source : Source} {c : Course} {first : Bool}

theorem course_concat (ctx : Pipeline.Context) (settings : TailSettings) (sources : List Source)
    (ms : List Moment) (m : Moment) :
    course ctx settings sources (ms ++ [m]) =
      (course ctx settings sources ms).next ctx ms.isEmpty m := by
  cases ms with
  | nil => rfl
  | cons first ms =>
    rw [course, List.cons_append, Course.run, List.foldl_append]
    rfl

/-! ### The moments before a stop -/

theorem going_concat (h : ∀ m ∈ ms, m.stops = false) (hm : m.stops = false) :
    ∀ m' ∈ ms ++ [m], m'.stops = false := by
  intro m' hm'
  obtain hmem | hmem := List.mem_append.1 hm'
  · exact h m' hmem
  · rw [List.mem_singleton.1 hmem]
    exact hm

theorem any_stops_of_going (h : ∀ m ∈ ms, m.stops = false) : ms.any (·.stops) = false :=
  List.any_eq_false.2 fun m hm => by simp [h m hm]

theorem heard_of_going (h : ∀ m ∈ ms, m.stops = false) : heard ms = ms :=
  List.takeWhile_eq_self_iff.2 fun m hm => by simp [h m hm]

theorem heard_append_of_going (h : ∀ m ∈ ms, m.stops = false) (ms' : List Moment) :
    heard (ms ++ ms') = ms ++ heard ms' := by
  have hms : ms.takeWhile (fun m => !m.stops) = ms := heard_of_going h
  rw [heard, List.takeWhile_append, hms, if_pos rfl]
  rfl

theorem heard_concat_of_stops (h : ∀ m ∈ ms, m.stops = false) (hm : m.stops = true) :
    heard (ms ++ [m]) = heard ms := by
  have hnone : heard [m] = [] := by simp [heard, hm]
  rw [heard_append_of_going h, hnone, List.append_nil, heard_of_going h]

theorem heard_append_of_stopped (h : ∃ m ∈ ms, m.stops) (ms' : List Moment) :
    heard (ms ++ ms') = heard ms := by
  rw [heard, List.takeWhile_append, if_neg]
  · rfl
  · intro hlength
    have hms := (List.takeWhile_prefix (fun m : Moment => !m.stops)).eq_of_length hlength
    obtain ⟨m, hm, hstops⟩ := h
    have hgoes := List.takeWhile_eq_self_iff.1 hms m hm
    simp [hstops] at hgoes

theorem heard_prefix_append (ms ms' : List Moment) : heard ms <+: heard (ms ++ ms') := by
  by_cases h : ∃ m ∈ ms, m.stops
  · rw [heard_append_of_stopped h]
  · have hgoing : ∀ m ∈ ms, m.stops = false := by simpa using h
    rw [heard_append_of_going hgoing, heard_of_going hgoing]
    exact List.prefix_append _ _

/-! ### Followers on their own -/

theorem followed_rests (h : (followed ctx settings ms source).ending = .waits) :
    Follower.Rests (followed ctx settings ms source).run source settings.maxFailures := by
  have hends := Follower.follow_guarded (Follower.rests_start source settings.maxFailures)
    (ms.map fun m => occasion ⟨m.disk, ctx⟩ source)
  cases hends with
  | waits _ hrests => exact hrests
  | fails hfails _ => exact absurd (h.symm.trans hfails) nofun

theorem exists_fails (h : (followed ctx settings ms source).ending ≠ .waits) :
    ∃ f, (followed ctx settings ms source).ending = .fails f := by
  have hends := Follower.follow_guarded (Follower.rests_start source settings.maxFailures)
    (ms.map fun m => occasion ⟨m.disk, ctx⟩ source)
  cases hends with
  | waits hwaits _ => exact absurd hwaits h
  | fails hfails _ => exact ⟨_, hfails⟩

theorem followed_concat (h : (followed ctx settings ms source).ending = .waits) (m : Moment) :
    followed ctx settings (ms ++ [m]) source =
      Follower.meet (followed ctx settings ms source).run (occasion ⟨m.disk, ctx⟩ source) := by
  rw [followed, List.map_append]
  exact Follower.follow_concat h _

theorem followed_waits_of_prefix (h : (followed ctx settings ms' source).ending = .waits)
    (hms : ms <+: ms') : (followed ctx settings ms source).ending = .waits := by
  obtain ⟨rest, rfl⟩ := hms
  rw [followed, List.map_append] at h
  exact Follower.follow_waits_of_append h

/-- One more poll of the member of a source. -/
def polled (ctx : Pipeline.Context) (settings : TailSettings) (ms : List Moment)
    (first : Bool) (m : Moment) (source : Source) : Member × Refusals × Report :=
  stepMember ⟨m.disk, ctx⟩ false (opening first)
    ⟨(followed ctx settings ms source).run.follower, .running⟩ .none

theorem polled_waits (h : (followed ctx settings ms source).ending = .waits)
    (hnext : (followed ctx settings (ms ++ [m]) source).ending = .waits) (first : Bool) :
    (polled ctx settings ms first m source).1 =
      ⟨(followed ctx settings (ms ++ [m]) source).run.follower, .running⟩ ∧
      (share ctx (followed ctx settings (ms ++ [m]) source).run).writes =
        (share ctx (followed ctx settings ms source).run).writes ++
          (polled ctx settings ms first m source).2.2.writes ∧
      (share ctx (followed ctx settings (ms ++ [m]) source).run).counters =
        (share ctx (followed ctx settings ms source).run).counters ++
          (polled ctx settings ms first m source).2.2.counters ∧
      ∀ n ∈ (polled ctx settings ms first m source).2.2.counters, n.source = source.name := by
  have hrests := followed_rests h
  rw [followed_concat h m] at hnext ⊢
  obtain ⟨hmember, hwrites, hcounters⟩ :=
    stepMember_waits hrests.source_eq (silent_opening first) hrests.pending hnext
  refine ⟨hmember, hwrites, hcounters, fun n hn => ?_⟩
  exact source_of_mem_counters_stepMember hrests.source_eq
    (silent_opening first) hrests.pending hnext hn

theorem polled_fails (h : (followed ctx settings ms source).ending = .waits)
    (hnext : (followed ctx settings (ms ++ [m]) source).ending ≠ .waits) (first : Bool) :
    (polled ctx settings ms first m source).1.fault? ≠ none := by
  obtain ⟨f, hfails⟩ := exists_fails hnext
  rw [followed_concat h m] at hfails
  exact stepMember_fails (followed_rests h).source_eq hfails

/-! ### What belongs to one of several -/

theorem filter_flatMap_of_nodup {α β : Type} {l : List α} {f : α → List β} {p : β → Bool}
    {a : α} (hl : l.Nodup)
    (ha : a ∈ l) (h : ∀ a' ∈ l, a' ≠ a → ∀ b ∈ f a', p b = false) :
    (l.flatMap f).filter p = (f a).filter p := by
  have hnil (a' : α) (hmem : a' ∈ l) (hne : a' ≠ a) : (f a').filter p = [] := by
    rw [List.filter_eq_nil_iff]
    intro b hb
    simp [h a' hmem hne b hb]
  rw [List.filter_flatMap]
  -- All but the one part are filtered away.
  induction l with
  | nil => cases ha
  | cons x l ih =>
    obtain ⟨hx, hl⟩ := List.nodup_cons.1 hl
    rw [List.flatMap_cons]
    by_cases hxa : x = a
    · subst hxa
      have hrest : l.flatMap (fun a => (f a).filter p) = [] := by
        rw [List.flatMap_eq_nil_iff]
        intro a' hmem
        exact hnil a' (List.mem_cons_of_mem _ hmem) fun heq => hx (heq ▸ hmem)
      rw [hrest, List.append_nil]
    · have hmem := (List.mem_cons.1 ha).resolve_left (Ne.symm hxa)
      rw [hnil x List.mem_cons_self hxa, List.nil_append]
      exact ih hl hmem (fun a' ha' => h a' (List.mem_cons_of_mem x ha'))
        fun a' ha' => hnil a' (List.mem_cons_of_mem x ha')

theorem textsOf_append (source : Source) (w w' : List (Source × Text)) :
    textsOf source (w ++ w') = textsOf source w ++ textsOf source w' := by
  simp [textsOf]

theorem textsOf_flatMap {f : Source → List Text} (hsources : sources.Nodup)
    (hs : source ∈ sources) :
    textsOf source (sources.flatMap fun s => (f s).map (s, ·)) = f source := by
  rw [textsOf, filter_flatMap_of_nodup hsources hs]
  · simp [List.filter_map, Function.comp_def]
  · intro s _ hne entry hentry
    obtain ⟨t, -, rfl⟩ := List.mem_map.1 hentry
    simpa using hne

theorem count_flatMap {f : Source → List Counter} (hnames : (sources.map Source.name).Nodup)
    (hs : source ∈ sources)
    (hf : ∀ s ∈ sources, ∀ n ∈ f s, n.source = s.name) {n : Counter} (hn : n.source = source.name) :
    (sources.flatMap f).count n = (f source).count n := by
  rw [List.count_eq_countP, List.count_eq_countP, List.countP_eq_length_filter,
    filter_flatMap_of_nodup (List.Nodup.of_map _ hnames) hs]
  · rw [List.countP_eq_length_filter]
  · intro s hmem hne n' hn'
    have hname : s.name ≠ source.name :=
      fun heq => hne (List.inj_on_of_nodup_map hnames hmem hs heq)
    rw [beq_eq_false_iff_ne]
    rintro rfl
    exact hname ((hf s hmem _ hn').symm.trans hn)

/-! ## Steps -/

/-- What has become of the member of a source. -/
def memberAfter (ctx : Pipeline.Context) (settings : TailSettings) (ms : List Moment)
    (source : Source) : Member :=
  let m : Member := ⟨(followed ctx settings (heard ms) source).run.follower, .running⟩
  if ms.any (·.stops) then m.closed else m

namespace Course

/-- The service has come to what the followers of its sources have come to, each on its own. -/
structure Agrees (c : Course) (ctx : Pipeline.Context) (settings : TailSettings)
    (sources : List Source) (ms : List Moment) : Prop where
  waits : ∀ source ∈ sources, (followed ctx settings (heard ms) source).ending = .waits
  members : c.service.members = sources.map (memberAfter ctx settings ms)
  ended : sources ≠ [] → c.service.ended = if ms.any (·.stops) then some .stopped else none
  writes : c.writes = c.written.map Prod.snd
  mem : ∀ entry ∈ c.written, entry.1 ∈ sources
  texts : ∀ source ∈ sources,
    textsOf source c.written = (share ctx (followed ctx settings (heard ms) source).run).writes
  counters : ∀ source ∈ sources, ∀ n : Counter, n.source = source.name →
    c.service.tally.count n =
      (share ctx (followed ctx settings (heard ms) source).run).counters.count n

/-- How a run stands at a moment. -/
inductive Stands (c : Course) (ctx : Pipeline.Context) (settings : TailSettings)
    (sources : List Source) (ms : List Moment) : Prop
  | live (agrees : c.Agrees ctx settings sources ms) (hlive : c.service.Live sources)
      (going : ∀ m ∈ ms, m.stops = false) (started : ms ≠ [] → sources ≠ [])
  | finished (agrees : c.Agrees ctx settings sources ms) (hover : c.service.Over .stopped)
      (started : ms ≠ []) (stopped : (∃ m ∈ ms, m.stops) ∨ sources = [])
  | failed {f : Failure} (hover : c.service.Over (.failed f)) (started : ms ≠ [])
      (fails : ∃ source ∈ sources, (followed ctx settings (heard ms) source).ending ≠ .waits)

theorem members_facing (c : Course) (m : Moment) : (c.facing m).members = c.service.members := by
  unfold facing
  cases m.stops <;> rfl

theorem ended_facing (c : Course) (m : Moment) : (c.facing m).ended = c.service.ended := by
  unfold facing
  cases m.stops <;> rfl

theorem tally_facing (c : Course) (m : Moment) : (c.facing m).tally = c.service.tally := by
  unfold facing
  cases m.stops <;> rfl

theorem refusals_facing (c : Course) (m : Moment) : (c.facing m).refusals = .none := rfl

theorem over_facing {e : Ended} (h : c.service.Over e) (m : Moment) : (c.facing m).Over e := by
  refine over_of_done ((c.ended_facing m).trans h.ended) ?_
  rw [members_facing]
  exact h.done

theorem live_facing (h : c.service.Live sources) (hm : m.stops = false) :
    (c.facing m).Live sources := by
  have hfacing : c.facing m = { c.service with refusals := .none } := by
    rw [facing, hm]
    rfl
  rw [hfacing]
  exact ⟨h.ended, h.stopping, h.cancelled, h.sources_eq, h.ready⟩

theorem next_eq (ctx : Pipeline.Context) (m : Moment) (first : Bool)
    (h : first = true → c.service.members ≠ []) :
    c.next ctx first m =
      ⟨((c.facing m).advance ⟨m.disk, ctx⟩ (opening first)).1,
        c.writes ++ ((c.facing m).advance ⟨m.disk, ctx⟩ (opening first)).2.writes,
        c.written ++ Service.written ⟨m.disk, ctx⟩ (c.facing m).stopping (opening first)
          c.service.members .none⟩ := by
  unfold next
  cases first with
  | false =>
    dsimp only
    rw [members_facing]
    rfl
  | true =>
    obtain ⟨notices, hstart⟩ :=
      start_of_ne_nil (s := c.facing m) ⟨m.disk, ctx⟩ (by rw [members_facing]; exact h rfl)
    dsimp only
    rw [if_pos rfl, hstart, members_facing]
    rfl

/-! ### Once the service has ended -/

theorem next_of_over {e : Ended} (h : c.service.Over e) (ctx : Pipeline.Context) (m : Moment) :
    c.next ctx false m = ⟨c.facing m, c.writes, c.written⟩ := by
  have hnext : c.next ctx false m = _ := next_eq ctx m false nofun
  rwa [(over_facing h m).quiet, written_of_done _ _ h.done, List.append_nil,
    List.append_nil] at hnext

theorem Agrees.stays (h : c.Agrees ctx settings sources ms) (hheard : heard ms' = heard ms)
    (hany : ms'.any (·.stops) = ms.any (·.stops)) (m : Moment) :
    Agrees ⟨c.facing m, c.writes, c.written⟩ ctx settings sources ms' := by
  have hmember : memberAfter ctx settings ms' = memberAfter ctx settings ms := by
    funext source
    rw [memberAfter, memberAfter, hheard, hany]
  refine ⟨?_, ?_, fun hne => ?_, h.writes, h.mem, ?_, fun source hs n hn => ?_⟩
  · rw [hheard]
    exact h.waits
  · rw [hmember, ← h.members]
    exact members_facing c m
  · rw [hany, ← h.ended hne]
    exact ended_facing c m
  · rw [hheard]
    exact h.texts
  · rw [hheard, ← h.counters source hs n hn, ← c.tally_facing m]

theorem agrees_nil (hmembers : c.service.members = []) (hwrites : c.writes = c.written.map Prod.snd)
    (hmem : ∀ entry ∈ c.written, entry.1 ∈ ([] : List Source)) : c.Agrees ctx settings [] ms := by
  refine ⟨?_, hmembers, fun hne => absurd rfl hne, hwrites, hmem, ?_, ?_⟩
  · exact fun _ hs => absurd hs List.not_mem_nil
  · exact fun _ hs => absurd hs List.not_mem_nil
  · exact fun _ hs => absurd hs List.not_mem_nil

theorem Stands.next_of_over {e : Ended} (h : c.Stands ctx settings sources ms)
    (hover : c.service.Over e) (m : Moment) :
    (c.next ctx ms.isEmpty m).Stands ctx settings sources (ms ++ [m]) := by
  cases h with
  | live _ hlive => exact absurd (hlive.ended.symm.trans hover.ended) nofun
  | finished agrees hover started stopped =>
    rw [List.isEmpty_eq_false_iff.2 started, Course.next_of_over hover]
    refine .finished ?_ (over_facing hover m) (by simp)
      (stopped.imp_left fun ⟨m', hm', hs⟩ => ⟨m', by simp [hm'], hs⟩)
    -- A later moment is not heard of, or there is no source that could hear of it.
    obtain hstops | rfl := stopped
    · have hany : (ms ++ [m]).any (·.stops) = ms.any (·.stops) := by
        rw [List.any_append, List.any_eq_true.2 hstops, Bool.true_or]
      exact agrees.stays (heard_append_of_stopped hstops [m]) hany m
    · exact agrees_nil ((members_facing c m).trans agrees.members) agrees.writes agrees.mem
  | failed hover started fails =>
    rw [List.isEmpty_eq_false_iff.2 started, Course.next_of_over hover]
    obtain ⟨source, hs, hfails⟩ := fails
    refine .failed (over_facing hover m) (by simp) ⟨source, hs, fun hwaits => hfails ?_⟩
    exact followed_waits_of_prefix hwaits (heard_prefix_append ms [m])

/-! ### While the service goes on -/

theorem Stands.next_of_stops (h : c.Agrees ctx settings sources ms) (hlive : c.service.Live sources)
    (hgoing : ∀ m ∈ ms, m.stops = false) (hne : sources ≠ []) (hm : m.stops = true) :
    (c.next ctx first m).Stands ctx settings sources (ms ++ [m]) := by
  have hmembers := hlive.members_ne_nil hne
  have hstopping : (c.facing m).stopping = true := by
    rw [facing, hm]
    rfl
  have hcancelled : (c.facing m).cancelled = false := by
    rw [facing, hm]
    exact hlive.cancelled
  have hready : ∀ m' ∈ (c.facing m).members, m'.Ready := by
    rw [members_facing]
    exact hlive.ready
  obtain ⟨hover, hclosed, htally, hwrites, -⟩ := advance_stops ⟨m.disk, ctx⟩
    ((c.ended_facing m).trans hlive.ended) hstopping hcancelled hready (silent_opening first)
  have hwritten := written_of_stopping ⟨m.disk, ctx⟩ (silent_opening first)
    (fun m' hm' => .inl (hlive.ready m' hm')) .none
  have hheard := heard_concat_of_stops hgoing hm
  have hany : (ms ++ [m]).any (·.stops) = true := by simp [hm]
  have hanybefore := any_stops_of_going hgoing
  rw [next_eq ctx m first fun _ => hmembers, hwrites, hstopping, hwritten,
    List.append_nil, List.append_nil]
  refine .finished ⟨?_, ?_, fun _ => ?_, h.writes, h.mem, ?_, ?_⟩ hover (by simp)
    (.inl ⟨m, by simp, hm⟩)
  · rw [hheard]
    exact h.waits
  · show ((c.facing m).advance _ _).1.members = _
    rw [hclosed, members_facing, h.members, List.map_map]
    refine List.map_congr_left fun source _ => ?_
    simp [memberAfter, hany, hanybefore, hheard]
  · rw [hany]
    exact hover.ended
  · rw [hheard]
    exact h.texts
  · rw [hheard]
    show ∀ source ∈ sources, ∀ n : Counter, _ → ((c.facing m).advance _ _).1.tally.count n = _
    rw [htally, tally_facing]
    exact h.counters

section Polls

variable (h : c.Agrees ctx settings sources ms) (hlive : c.service.Live sources)
  (hgoing : ∀ m ∈ ms, m.stops = false) (hm : m.stops = false)

include h hgoing

theorem Agrees.members_of_going :
    c.service.members = sources.map
      fun source => ⟨(followed ctx settings ms source).run.follower, .running⟩ := by
  rw [h.members]
  refine List.map_congr_left fun source _ => ?_
  rw [memberAfter, any_stops_of_going hgoing, heard_of_going hgoing]
  rfl

theorem Agrees.waits_of_going :
    ∀ source ∈ sources, (followed ctx settings ms source).ending = .waits := by
  have hwaits := h.waits
  rwa [heard_of_going hgoing] at hwaits

include hlive hm

/-- The polls of a step are those of the members on their own. -/
theorem Agrees.stepped_eq (first : Bool) :
    (stepped ⟨m.disk, ctx⟩ (opening first) (c.facing m)).1.members =
        sources.map (fun source => (polled ctx settings ms first m source).1) ∧
      Service.written ⟨m.disk, ctx⟩ (c.facing m).stopping (opening first) c.service.members .none =
        sources.flatMap
          (fun source => (polled ctx settings ms first m source).2.2.writes.map (source, ·)) ∧
      (stepped ⟨m.disk, ctx⟩ (opening first) (c.facing m)).2.writes =
        (Service.written ⟨m.disk, ctx⟩ (c.facing m).stopping (opening first) c.service.members
          .none).map Prod.snd ∧
      (stepped ⟨m.disk, ctx⟩ (opening first) (c.facing m)).2.counters =
        sources.flatMap fun source => (polled ctx settings ms first m source).2.2.counters := by
  have hstopping : (c.facing m).stopping = false := (live_facing hlive hm).stopping
  obtain ⟨hmembers, hwritten, hcounters⟩ :=
    stepMembers_none ⟨m.disk, ctx⟩ false (silent_opening first) hlive.ready
  have hwaits := h.waits_of_going hgoing
  rw [h.members_of_going hgoing] at hmembers hwritten hcounters
  unfold stepped
  dsimp only
  rw [hstopping, members_facing, refusals_facing, h.members_of_going hgoing]
  refine ⟨?_, ?_, ?_, ?_⟩
  · rw [hmembers, List.map_map]
    rfl
  · rw [hwritten, List.flatMap_map]
    refine List.flatMap_congr fun source hs => ?_
    have hsource : (followed ctx settings ms source).run.follower.source = source :=
      (followed_rests (hwaits source hs)).source_eq
    simp only [Member.source, hsource, polled]
  · exact (written_snd _ _ _ _ _).symm
  · rw [hcounters, List.flatMap_map]
    rfl

theorem Agrees.fault?_facing_eq_none
    (hall : ∀ source ∈ sources, (followed ctx settings (ms ++ [m]) source).ending = .waits)
    (first : Bool) : fault? ⟨m.disk, ctx⟩ (opening first) (c.facing m) = none := by
  have hwaits := h.waits_of_going hgoing
  rw [fault?, (h.stepped_eq hlive hgoing hm first).1, List.findSome?_map,
    List.findSome?_eq_none_iff]
  intro source hs
  rw [Function.comp_apply, (polled_waits (hwaits source hs) (hall source hs) first).1]
  rfl

theorem Agrees.next_of_waits (hnames : (sources.map Source.name).Nodup) (hne : sources ≠ [])
    (hall : ∀ source ∈ sources, (followed ctx settings (ms ++ [m]) source).ending = .waits)
    (first : Bool) :
    (c.next ctx first m).Agrees ctx settings sources (ms ++ [m]) ∧
    (c.next ctx first m).service.Live sources := by
  have hmembers := hlive.members_ne_nil hne
  have hgoing' := going_concat hgoing hm
  have hheard : heard (ms ++ [m]) = ms ++ [m] := heard_of_going hgoing'
  have hany := any_stops_of_going hgoing'
  have htexts := h.texts
  have hcounters := h.counters
  rw [heard_of_going hgoing] at htexts hcounters
  obtain ⟨hstepped, hwritten, hwrites, hraised⟩ := h.stepped_eq hlive hgoing hm first
  have hpolled :=
    fun source hs => polled_waits (h.waits_of_going hgoing source hs) (hall source hs) first
  obtain ⟨hlive', hadvance⟩ := (live_facing hlive hm).advance_waits _ hnames
    (h.fault?_facing_eq_none hlive hgoing hm hall first)
  rw [next_eq ctx m first fun _ => hmembers]
  rw [hadvance] at hlive' ⊢
  refine ⟨⟨?_, ?_, fun _ => ?_, ?_, ?_, fun source hs => ?_, fun source hs n hn => ?_⟩, hlive'⟩
  · rw [hheard]
    exact hall
  · show (stepped ⟨m.disk, ctx⟩ (opening first) (c.facing m)).1.members = _
    rw [hstepped]
    refine List.map_congr_left fun source hs => ?_
    rw [memberAfter, hany, hheard]
    exact (hpolled source hs).1
  · rw [hany]
    exact hlive'.ended
  · rw [List.map_append, ← h.writes, ← hwrites]
  · intro entry hentry
    obtain hmem | hmem := List.mem_append.1 hentry
    · exact h.mem entry hmem
    · rw [hwritten, List.mem_flatMap] at hmem
      obtain ⟨source, hs, hmem⟩ := hmem
      obtain ⟨t, -, rfl⟩ := List.mem_map.1 hmem
      exact hs
  · rw [hheard, textsOf_append, hwritten, textsOf_flatMap (List.Nodup.of_map _ hnames) hs,
      (hpolled source hs).2.1, htexts source hs]
  · show Tally.count (Tally.raiseAll (c.facing m).tally _) n = _
    rw [Tally.count_raiseAll, tally_facing, hraised, hcounters source hs n hn, hheard,
      (hpolled source hs).2.2.1, List.count_append,
      count_flatMap hnames hs (fun s hmem => (hpolled s hmem).2.2.2) hn]

theorem Agrees.next_of_fails (hnames : (sources.map Source.name).Nodup)
    (hfails : ∃ source ∈ sources, (followed ctx settings (ms ++ [m]) source).ending ≠ .waits)
    (first : Bool) : ∃ f, (c.next ctx first m).service.Over (.failed f) := by
  obtain ⟨source, hs, hfails⟩ := hfails
  have hmembers := hlive.members_ne_nil (List.ne_nil_of_mem hs)
  have hfault : fault? ⟨m.disk, ctx⟩ (opening first) (c.facing m) ≠ none := by
    rw [fault?, (h.stepped_eq hlive hgoing hm first).1, List.findSome?_map, Ne,
      List.findSome?_eq_none_iff]
    exact fun hnone => polled_fails (h.waits_of_going hgoing source hs) hfails first
      (hnone source hs)
  obtain ⟨⟨name, f⟩, hsome⟩ := Option.ne_none_iff_exists'.1 hfault
  rw [next_eq ctx m first fun _ => hmembers]
  exact ⟨_, (live_facing hlive hm).advance_fails _ hnames hsome⟩

end Polls

theorem Agrees.next_of_nil (h : c.Agrees ctx settings [] ms)
    (hlive : c.service.Live []) (m : Moment) :
    (c.next ctx true m).Agrees ctx settings [] (ms ++ [m]) ∧
    (c.next ctx true m).service.Over .stopped := by
  have hmembers := (members_facing c m).trans hlive.members_eq_nil
  obtain ⟨notices, hstart⟩ := start_of_nil ⟨m.disk, ctx⟩ hmembers
  have hnext : c.next ctx true m =
      ⟨{ c.facing m with ended := some .stopped }, c.writes, c.written⟩ := by
    unfold next
    dsimp only
    rw [if_pos rfl, hstart, hmembers]
    dsimp only
    rw [Service.written, List.append_nil, List.append_nil]
  rw [hnext]
  refine ⟨agrees_nil hmembers h.writes h.mem, over_of_done rfl fun m' hm' => ?_⟩
  have hmem : m' ∈ (c.facing m).members := hm'
  rw [hmembers] at hmem
  exact absurd hmem List.not_mem_nil

theorem Stands.next (h : c.Stands ctx settings sources ms)
    (hnames : (sources.map Source.name).Nodup) (m : Moment) :
    (c.next ctx ms.isEmpty m).Stands ctx settings sources (ms ++ [m]) := by
  cases h with
  | finished agrees hover started stopped =>
    exact Stands.next_of_over (.finished agrees hover started stopped) hover m
  | failed hover started fails => exact Stands.next_of_over (.failed hover started fails) hover m
  | live agrees live going started =>
    -- Without sources the first step is the last one.
    by_cases hne : sources = []
    · subst hne
      have hnil : ms = [] := by
        by_contra hms
        exact started hms rfl
      subst hnil
      obtain ⟨hagrees, hover⟩ := agrees.next_of_nil live m
      exact .finished hagrees hover (by simp) (.inr rfl)
    by_cases hm : m.stops
    · exact Stands.next_of_stops agrees live going hne hm
    have hm : m.stops = false := by simpa using hm
    have hgoing := going_concat going hm
    by_cases hall : ∀ source ∈ sources, (followed ctx settings (ms ++ [m]) source).ending = .waits
    · obtain ⟨hagrees, hlive⟩ := agrees.next_of_waits live going hm hnames hne hall ms.isEmpty
      exact .live hagrees hlive hgoing fun _ => hne
    · have hfails :
          ∃ source ∈ sources, (followed ctx settings (ms ++ [m]) source).ending ≠ .waits := by
        simpa using hall
      obtain ⟨f, hover⟩ := agrees.next_of_fails live going hm hnames hfails ms.isEmpty
      refine .failed hover (by simp) ?_
      rwa [heard_of_going hgoing]

end Course

/-! ## Whole runs -/

theorem course_stands (ctx : Pipeline.Context) (settings : TailSettings)
    (hnames : (sources.map Source.name).Nodup)
    (ms : List Moment) : (course ctx settings sources ms).Stands ctx settings sources ms := by
  induction ms using List.reverseRecOn with
  | nil =>
    refine .live ⟨fun _ _ => rfl, rfl, fun _ => rfl, rfl, ?_, fun _ _ => rfl, fun _ _ _ _ => rfl⟩
      (live_ofSources sources settings) ?_ fun h => absurd rfl h
    · exact fun _ h => absurd h List.not_mem_nil
    · exact fun _ h => absurd h List.not_mem_nil
  | append_singleton ms m ih =>
    rw [course_concat]
    exact ih.next hnames m

/-- What a run of the service over several sources has to do with the runs over each of them. -/
structure Independent (ctx : Pipeline.Context) (settings : TailSettings) (sources : List Source)
    (ms : List Moment) : Prop where
  /-- Every source is followed as it is alone. -/
  members : (course ctx settings sources ms).service.members =
    sources.flatMap fun source => (course ctx settings [source] ms).service.members
  alone : ∀ source ∈ sources, (course ctx settings [source] ms).service.members =
    [memberAfter ctx settings ms source]
  ended : ∀ source ∈ sources,
    (course ctx settings sources ms).service.ended = (course ctx settings [source] ms).service.ended
  counters : ∀ source ∈ sources, ∀ n : Counter, n.source = source.name →
    (course ctx settings sources ms).service.tally.count n =
    (course ctx settings [source] ms).service.tally.count n
  texts : ∀ source ∈ sources,
    textsOf source (course ctx settings sources ms).written =
      (course ctx settings [source] ms).writes
  /-- The output is an interleaving of the texts of the sources. -/
  writes : (course ctx settings sources ms).writes =
    (course ctx settings sources ms).written.map Prod.snd
  mem : ∀ entry ∈ (course ctx settings sources ms).written, entry.1 ∈ sources
  /-- The texts of a source are its printed lines, each rendered and whole, in the order of their
  delivery. -/
  lines : ∀ source ∈ sources, (course ctx settings [source] ms).writes =
    (((followed ctx settings (heard ms) source).run.lines.map (Pipeline.Call.mk ctx source)).filter
      Pipeline.Call.isPrinted).map fun call => call.rendered ++ ("\n" : Text)

theorem Course.Agrees.writes_of_single (h : c.Agrees ctx settings [source] ms) :
    c.writes = textsOf source c.written := by
  rw [h.writes, textsOf, List.filter_eq_self.2]
  intro entry hentry
  simpa using h.mem entry hentry

theorem Course.Agrees.writes_eq_lines (h : c.Agrees ctx settings [source] ms) : c.writes =
    (((followed ctx settings (heard ms) source).run.lines.map (Pipeline.Call.mk ctx source)).filter
      Pipeline.Call.isPrinted).map fun call => call.rendered ++ ("\n" : Text) := by
  have hwaits := h.waits source List.mem_cons_self
  have hoffered : (followed ctx settings (heard ms) source).run.offered =
      (followed ctx settings (heard ms) source).run.lines := Follower.offered_follow hwaits
  rw [h.writes_of_single, h.texts source List.mem_cons_self, share, writes_reportEvents,
    (followed_rests hwaits).source_eq, ← hoffered]
  rfl

/-- In a run over sources with distinct names in which no call is refused and no follower fails,
every source has the same state, counters and texts at every moment as in a run over that source
alone.  The output is an interleaving of these texts, each of which is one rendered line, in the
order in which the lines of the source were delivered. -/
theorem course_independent (hnames : (sources.map Source.name).Nodup)
    (hfails : ∀ f, (course ctx settings sources ms).service.ended ≠ some (.failed f))
    {before : List Moment} (hbefore : before <+: ms) : Independent ctx settings sources before := by
  -- The followers go on in the whole run, so they did at its beginning, and with them goes on a
  -- service over any part of the sources.
  have hwaits :
      ∀ source ∈ sources, (followed ctx settings (heard before) source).ending = .waits := by
    obtain ⟨rest, rfl⟩ := hbefore
    intro source hs
    refine followed_waits_of_prefix ?_ (heard_prefix_append before rest)
    cases course_stands ctx settings hnames (before ++ rest) with
    | live agrees => exact agrees.waits source hs
    | finished agrees => exact agrees.waits source hs
    | failed hover => exact absurd hover.ended (hfails _)
  have hagrees {part : List Source} (hpart : (part.map Source.name).Nodup)
      (hsub : ∀ source ∈ part, source ∈ sources) :
      (course ctx settings part before).Agrees ctx settings part before := by
    cases course_stands ctx settings hpart before with
    | live agrees => exact agrees
    | finished agrees => exact agrees
    | failed _ _ fails =>
      obtain ⟨source, hs, hstops⟩ := fails
      exact absurd (hwaits source (hsub source hs)) hstops
  have hall := hagrees hnames fun _ => id
  have hone (source : Source) (hs : source ∈ sources) :
      (course ctx settings [source] before).Agrees ctx settings [source] before :=
    hagrees (List.nodup_singleton _) fun _ h => List.mem_singleton.1 h ▸ hs
  have hmem (source : Source) : source ∈ [source] := List.mem_cons_self
  constructor
  · rw [hall.members, ← List.flatMap_pure_eq_map]
    refine List.flatMap_congr fun source hs => ?_
    rw [(hone source hs).members]
    rfl
  · exact fun source hs => (hone source hs).members
  · intro source hs
    rw [hall.ended (List.ne_nil_of_mem hs), (hone source hs).ended (List.cons_ne_nil _ _)]
  · intro source hs n hn
    rw [hall.counters source hs n hn, (hone source hs).counters source (hmem source) n hn]
  · intro source hs
    rw [hall.texts source hs, (hone source hs).writes_of_single,
      (hone source hs).texts source (hmem source)]
  · exact hall.writes
  · exact hall.mem
  · exact fun source hs => (hone source hs).writes_eq_lines

/-! ### Two logs -/

def appLog : Source := ⟨"app", ⟨.none, ["app.log"]⟩, true, false, .web⟩

def webLog : Source := ⟨"web", ⟨.none, ["web.log"]⟩, true, false, .web⟩

/-- A log with a line and the beginning of another one, and a log with one line. -/
def twoFiles : Disk where
  tree := [(Disk.home, .directory 1), ([[], "app.log"], .file 2), ([[], "web.log"], .file 3)]
  files := [(2, ⟨[97, 10, 98], 2, 0o644⟩), (3, ⟨[99, 10], 3, 0o644⟩)]
  next := 4

/-- The machine format with no filter set. -/
def unfiltered : Pipeline.Context := ⟨.machine, ⟨[]⟩, .ok []⟩

theorem view_twoFiles : twoFiles.view appLog.path.text = ⟨.file 2, twoFiles.file⟩ ∧
    twoFiles.view webLog.path.text = ⟨.file 3, twoFiles.file⟩ := by
  have hview (path : Text) (n : Nat) (hpath : unnameable? path = none)
      (hplace : twoFiles.place path = .ok ⟨[[], path], some (.file n)⟩) :
      twoFiles.view path = ⟨.file n, twoFiles.file⟩ := by
    rw [Disk.view, hpath, hplace]
  have happ : twoFiles.place "app.log" =
      twoFiles.walk Disk.linkLimit Disk.home [("app.log" : Text)] := rfl
  have hweb : twoFiles.place "web.log" =
      twoFiles.walk Disk.linkLimit Disk.home [("web.log" : Text)] := rfl
  rw [Disk.walk] at happ hweb
  exact ⟨hview "app.log" 2 rfl (happ.trans rfl), hview "web.log" 3 rfl (hweb.trans rfl)⟩

theorem followed_twoFiles :
    (followed unfiltered .default [⟨twoFiles, false⟩] appLog).ending = .waits ∧
      (followed unfiltered .default [⟨twoFiles, false⟩] webLog).ending = .waits := by
  obtain ⟨happ, hweb⟩ := view_twoFiles
  constructor
  · show (Follower.follow _ [⟨twoFiles.view appLog.path.text, .none, _⟩]).ending = .waits
    rw [happ]
    rfl
  · show (Follower.follow _ [⟨twoFiles.view webLog.path.text, .none, _⟩]).ending = .waits
    rw [hweb]
    rfl

theorem course_twoFiles : Independent unfiltered .default [appLog, webLog] [⟨twoFiles, false⟩] := by
  have hnames : ([appLog, webLog].map Source.name).Nodup := by decide
  have hfails (f : Failure) :
      (course unfiltered .default [appLog, webLog] [⟨twoFiles, false⟩]).service.ended ≠
          some (.failed f) := by
    cases course_stands unfiltered .default hnames [⟨twoFiles, false⟩] with
    | live _ hlive => simp [hlive.ended]
    | finished _ hover => simp [hover.ended]
    | failed _ _ fails =>
      obtain ⟨source, hs, hstops⟩ := fails
      obtain ⟨happ, hweb⟩ := followed_twoFiles
      simp only [List.mem_cons, List.not_mem_nil, or_false] at hs
      obtain rfl | rfl := hs
      · exact absurd happ hstops
      · exact absurd hweb hstops
  exact course_independent hnames hfails (List.prefix_refl _)

end Service

end LogRelay
