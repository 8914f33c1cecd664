import LogRelay.Proofs.Turns

/-!
# Why following ends

Refused calls are counted, and following goes on while fewer than the limit were refused in a row
(`Run.Bears`).  It ends because a line was not taken or because the limit was reached, and besides
these for three causes that no count guards (`Run.GivesUp`): the move to the start of a file that is
begun again was refused, closing a file that could not be prepared for reading was refused, or the
path is not the name of a file.  Every part of a follower's work keeps to this, hence a whole run
(`follow_ends`).
-/

namespace LogRelay

namespace FollowEvent

/-- Which failure in a row was counted. -/
def attempt? : FollowEvent → Option Nat
  | refused _ attempt => some attempt
  | _ => none

end FollowEvent

namespace Refusals

variable {rs rs' : Refusals} {kind : CallKind} {errno : Errno}

/-- A schedule lists an error that calls of a kind are refused with. -/
def Lists (rs : Refusals) (kind : CallKind) (errno : Errno) : Prop := some errno ∈ rs.next kind

theorem Leaves.lists (h : rs.Leaves rs') (hl : rs'.Lists kind errno) : rs.Lists kind errno :=
  (h kind).subset hl

theorem lists_of_ask (h : (rs.ask kind).1 = some errno) : rs.Lists kind errno := by
  unfold ask at h
  split at h
  · cases h
  · next outcome rest hn =>
    unfold Lists
    rw [hn, ← h]
    exact List.mem_cons_self

end Refusals

namespace Run

theorem exists_lists_of_refusal? {run : Run} {kind : CallKind} {e : IoError}
    (h : run.refusal? kind = some e) :
    ∃ errno, e = ⟨errno, none⟩ ∧ run.refusals.Lists kind errno := by
  obtain ⟨errno, ha, he⟩ := Option.map_eq_some_iff.1 h
  exact ⟨errno, he.symm, Refusals.lists_of_ask ha⟩

/-! ## What is counted -/

/-- The failures that were counted, as numbers in their row, the last one first. -/
def attempts (run : Run) : List Nat := run.events.filterMap FollowEvent.attempt?

/-- The failures that were counted last are the first, the second and so on, up to the present
count. -/
def Counted (run : Run) : Prop := (List.range' 1 run.follower.failures).reverse <+: run.attempts

/-- The run goes on: fewer calls were refused in a row than are allowed. -/
structure Bears (run : Run) (source : Source) (limit : Int) : Prop where
  source_eq : run.follower.source = source
  limit_eq : run.follower.limit = limit
  few : run.follower.failures = 0 ∨ (run.follower.failures : Int) < limit
  counted : run.Counted

/-- Why a run has ended that met an occasion. -/
inductive GivesUp (run : Run) (source : Source) (limit : Int) (o : Occasion) : Failure → Prop
  /-- A line was not taken. -/
  | line {t : Text} {f : Failure} (refused : o.take t = some f)
      (last : run.events.head? = some (.lineRefused t)) : run.GivesUp source limit o f
  /-- As many calls were refused in a row as end following. -/
  | limit {e : IoError} (failures : (run.follower.failures : Int) = max limit 1)
      (counted : run.Counted)
      (last : run.events.head? = some (.refused e.message run.follower.failures)) :
      run.GivesUp source limit o (.tail source.path.text e.message)
  /-- The move to the start of a file was refused that was about to be read again. -/
  | restart {errno : Errno} (refused : o.refusals.Lists .seek errno)
      (last : run.events.head? = some (.noticed .truncated)) :
      run.GivesUp source limit o (.io ⟨errno, none⟩)
  /-- A file was opened, could not be prepared for reading, and closing it was refused. -/
  | abandoned {errno other : Errno}
      (before : o.refusals.Lists .readHead other ∨ o.refusals.Lists .seek other)
      (refused : o.refusals.Lists .close errno) : run.GivesUp source limit o (.io ⟨errno, none⟩)
  /-- The path cannot be the name of a file. -/
  | name {why : Unnameable}
      (target : o.view.target = .unnameable why) : run.GivesUp source limit o why.failure

/-- The run goes on within a poll on an occasion. -/
structure BearsOn (run : Run) (source : Source) (limit : Int) (o : Occasion) : Prop
    extends run.Bears source limit where
  leaves : o.refusals.Leaves run.refusals

variable {run : Run} {source : Source} {limit : Int} {o : Occasion}

theorem counted_start (source : Source) (limit : Int) : (Follower.start source limit).Counted :=
  List.nil_prefix

theorem attempts_log_of_eq_none {e : FollowEvent} (h : e.attempt? = none) :
    (run.log e).attempts = run.attempts := by
  simp [attempts, log, h]

theorem attempts_logLines (lines : List Bytes) : (run.logLines lines).attempts = run.attempts := by
  induction lines generalizing run with
  | nil => rfl
  | cons l ls ih => rw [logLines_cons, ih, attempts_log_of_eq_none rfl]

/-- One more failure in a row is counted as the next one. -/
theorem Counted.failed (h : run.Counted) (e : IoError) : (run.failed e).Counted := by
  have hattempts : (run.failed e).attempts = (run.follower.failures + 1) :: run.attempts := rfl
  have hfailures : (run.failed e).follower.failures = run.follower.failures + 1 := rfl
  rw [Counted, hattempts, hfailures, List.range'_concat, List.reverse_append,
    Nat.one_mul, Nat.add_comm 1]
  exact List.cons_prefix_cons.2 ⟨rfl, h⟩

namespace BearsOn

theorem asked (h : run.BearsOn source limit o) (kind : CallKind) :
    (run.asked kind).BearsOn source limit o :=
  ⟨⟨h.source_eq, h.limit_eq, h.few, h.counted⟩, h.leaves.trans (Refusals.leaves_ask _ kind)⟩

theorem log (h : run.BearsOn source limit o) {e : FollowEvent} (he : e.attempt? = none) :
    (run.log e).BearsOn source limit o := by
  refine ⟨⟨h.source_eq, h.limit_eq, h.few, ?_⟩, h.leaves⟩
  rw [Counted, attempts_log_of_eq_none he]
  exact h.counted

theorem logLines (h : run.BearsOn source limit o) (lines : List Bytes) :
    (run.logLines lines).BearsOn source limit o := by
  refine ⟨⟨h.source_eq, h.limit_eq, h.few, ?_⟩, h.leaves⟩
  rw [Counted, attempts_logLines]
  exact h.counted

/-- The count of failures stays as it is, or begins anew. -/
theorem put (h : run.BearsOn source limit o) {f : Follower} (hs : f.source = run.follower.source)
    (hl : f.limit = run.follower.limit) (hf : f.failures = run.follower.failures ∨ f.failures = 0) :
    (run.put f).BearsOn source limit o := by
  refine ⟨⟨hs.trans h.source_eq, hl.trans h.limit_eq, ?_, ?_⟩, h.leaves⟩
  · obtain hf | hf := hf
    · simpa [hf] using h.few
    · exact .inl hf
  · obtain hf | hf := hf
    · rw [Counted, follower_put, hf]
      exact h.counted
    · rw [Counted, follower_put, hf]
      exact List.nil_prefix

theorem lists (h : run.BearsOn source limit o) {kind : CallKind} {e : IoError}
    (he : run.refusal? kind = some e) :
    ∃ errno, e = ⟨errno, none⟩ ∧ o.refusals.Lists kind errno := by
  obtain ⟨errno, rfl, hl⟩ := exists_lists_of_refusal? he
  exact ⟨errno, rfl, h.leaves.lists hl⟩

end BearsOn

end Run

/-! ## The parts of the work -/

namespace Work

variable {α : Type} {source : Source} {limit : Int} {o : Occasion} {run : Run}

/-- After the work the run goes on, or it has ended for one of the causes. -/
def Guarded (source : Source) (limit : Int) (o : Occasion) (w : Work α) : Prop :=
  ∀ run : Run, run.BearsOn source limit o →
    wp w (fun _ run' => run'.BearsOn source limit o)
      (fun f run' => run'.GivesUp source limit o f) run

theorem Guarded.wp {w : Work α} (hw : Guarded source limit o w) (h : run.BearsOn source limit o)
    {Q : α → Run → Prop} (hQ : ∀ a run', run'.BearsOn source limit o → Q a run') :
    wp w Q (fun f run' => run'.GivesUp source limit o f) run :=
  (hw run h).mono hQ fun _ _ => id

theorem guarded_recordFailure (e : IoError) : Guarded source limit o (recordFailure e) := by
  intro run h
  have hfailures : (run.failed e).follower.failures = run.follower.failures + 1 := rfl
  refine wp_recordFailure (fun hlimit => ?_) fun hlimit => ?_
  · rw [h.limit_eq] at hlimit
    have hmax : ((run.failed e).follower.failures : Int) = max limit 1 := by
      have hfew := h.few
      omega
    rw [h.source_eq]
    exact .limit hmax (h.counted.failed e) rfl
  · rw [h.limit_eq] at hlimit
    exact ⟨⟨h.source_eq, h.limit_eq, .inr hlimit, h.counted.failed e⟩, h.leaves⟩

theorem guarded_deliverLine (line : Bytes) : Guarded source limit o (deliverLine o.take line) :=
  fun _ h => wp_deliverLine (fun _ hf => .line hf rfl) fun _ => h.log rfl

theorem guarded_deliver (chunk : Bytes) : Guarded source limit o (deliver o.take chunk) := by
  intro run h
  have htaken : (run.put (taking run.follower chunk)).BearsOn source limit o :=
    h.put rfl rfl (.inl rfl)
  exact wp_deliver (wp_deliverLines (fun _ _ _ _ hf => .line hf rfl) (htaken.logLines _))

theorem guarded_readChunk : Guarded source limit o (readChunk o.view) := by
  intro run h
  cases hh : run.follower.handle with
  | none =>
    unfold readChunk
    rw [wp_bind, wp_follower, hh]
    exact h
  | some handle =>
    refine wp_readChunk hh (fun e _ => ?_) fun _ => ?_
    · exact guarded_recordFailure e _ (h.asked _)
    · exact (h.asked _).put rfl rfl (.inr rfl)

theorem guarded_close : Guarded source limit o close := by
  intro run h
  by_cases hh : run.follower.handle.isSome
  · refine wp_close hh (fun e _ => ?_) fun _ => ?_
    · exact ((h.asked _).log rfl).put rfl rfl (.inl rfl)
    · exact (h.asked _).put rfl rfl (.inl rfl)
  · unfold close
    rw [wp_bind, wp_follower, if_neg hh]
    exact h

/-! ### Opening -/

theorem wp_abandon_guarded {e : IoError} {other : Errno} (h : run.BearsOn source limit o)
    (before : o.refusals.Lists .readHead other ∨ o.refusals.Lists .seek other) :
    wp (abandon e) (fun _ run' => run'.BearsOn source limit o)
      (fun f run' => run'.GivesUp source limit o f) run := by
  refine wp_abandon (fun e' he' => ?_) fun _ => guarded_recordFailure e _ (h.asked _)
  obtain ⟨errno, rfl, hl⟩ := h.lists he'
  exact .abandoned before hl

theorem guarded_prepare (number : Nat) (toEnd : Bool) :
    Guarded source limit o (prepare o.view number toEnd) := by
  intro run h
  refine wp_prepare (fun e he => ?_) (fun _ e he => ?_) fun _ _ => ?_
  · obtain ⟨errno, -, hl⟩ := h.lists he
    exact wp_abandon_guarded (h.asked _) (.inl hl)
  · obtain ⟨errno, -, hl⟩ := (h.asked _).lists he
    exact wp_abandon_guarded ((h.asked _).asked _) (.inr hl)
  · have hopened := ((h.asked .readHead).asked .seek).put
      (f := opening run.follower (o.view.data number) number toEnd) rfl rfl (.inr rfl)
    exact hopened.log rfl

theorem guarded_openFile (toEnd : Bool) : Guarded source limit o (openFile o.view toEnd) := by
  intro run h
  have hasked := h.asked .openFile
  exact wp_openFile (fun _ _ _ => hasked.log rfl) (fun e _ _ => guarded_recordFailure e _ hasked)
    (fun _ ht _ => .name ht) fun n _ _ => guarded_prepare n toEnd _ hasked

/-! ### Checking -/

theorem guarded_drainChunks (fuel : Nat) :
    Guarded source limit o (drainChunks o.view o.take fuel) := by
  induction fuel with
  | zero => exact fun _ h => h
  | succ fuel ih =>
    intro run h
    unfold drainChunks
    rw [wp_bind]
    refine guarded_readChunk.wp h fun chunk run₁ h₁ => ?_
    split
    · rw [wp_bind]
      exact (guarded_deliver chunk).wp h₁ fun _ run₂ h₂ => ih run₂ h₂
    · exact h₁

theorem guarded_drain : Guarded source limit o (drain o.view o.take) := by
  intro run h
  unfold drain
  rw [wp_bind, wp_follower, wp_bind]
  refine (guarded_drainChunks _).wp h fun _ run₁ h₁ => ?_
  rw [wp_bind, wp_follower]
  split
  · rw [wp_bind]
    refine (guarded_deliverLine _).wp h₁ fun _ run₂ h₂ => ?_
    exact h₂.put rfl rfl (.inl rfl)
  · exact h₁

theorem guarded_rotate : Guarded source limit o (rotate o.view o.take) := by
  intro run h
  unfold rotate
  rw [wp_bind, wp_emit, wp_bind]
  have hnoticed : (run.log (.noticed .rotated)).BearsOn source limit o := h.log rfl
  refine guarded_drain.wp hnoticed fun _ run₁ h₁ => ?_
  rw [wp_bind]
  exact guarded_close.wp h₁ fun _ run₂ h₂ => h₂.log rfl

theorem guarded_readHead : Guarded source limit o (readHead o.view) := by
  intro run h
  cases hh : run.follower.handle with
  | none =>
    unfold readHead
    rw [wp_bind, wp_follower, hh]
    exact h
  | some handle =>
    have hsought := (h.asked .seek).put (f := { run.follower with handle := some (handle.seek 0) })
      rfl rfl (.inl rfl)
    have hread (after : Handle) := (hsought.asked .readHead).put
      (f := { run.follower with handle := some after }) rfl rfl (.inl rfl)
    refine wp_readHead hh (fun _ _ => h.asked _) (fun _ _ _ => hsought.asked _) (fun _ _ _ _ => ?_)
      fun _ _ _ => ?_
    · exact (hread _).asked .seek
    · exact ((hread _).asked .seek).put rfl rfl (.inl rfl)

theorem guarded_restart (stamp : Stamp) (head : Bytes) :
    Guarded source limit o (restart stamp head) := by
  intro run h
  have hrestarting : (restarting run stamp head).BearsOn source limit o := by
    have hnoticed : (run.log (.noticed .truncated)).BearsOn source limit o := h.log rfl
    exact hnoticed.put rfl rfl (.inl rfl)
  refine wp_restart (fun e he => ?_) fun _ => ?_
  · obtain ⟨errno, rfl, hl⟩ := hrestarting.lists he
    exact .restart hl rfl
  · have hback := (hrestarting.asked .seek).put
      (f := { (restarting run stamp head).follower with
        handle := run.follower.handle.map (·.seek 0) })
      rfl rfl (.inl rfl)
    exact hback.log rfl

theorem guarded_checkRotation : Guarded source limit o (checkRotation o.view o.take) := by
  intro run h
  have hasked := h.asked .stat
  refine wp_checkRotation (fun _ _ _ => hasked) (fun e _ _ => guarded_recordFailure e _ hasked)
    (fun _ ht _ => .name ht) (fun _ _ _ _ => guarded_rotate _ hasked) (fun _ _ _ _ _ _ => hasked)
    fun n _ _ _ _ => ?_
  refine guarded_readHead.wp hasked
    fun found run₁ h₁ => ⟨fun e _ => ?_, fun head _ _ => ?_, fun head _ _ => ?_⟩
  · exact guarded_recordFailure e _ h₁
  · exact h₁.put rfl rfl (.inl rfl)
  · exact guarded_restart _ _ _ h₁

/-! ### Turns -/

theorem guarded_readOn : Guarded source limit o (readOn o.view o.take) := by
  intro run h
  unfold readOn
  rw [wp_bind]
  refine guarded_readChunk.wp h fun chunk run₁ h₁ => ?_
  split
  · exact h₁
  · rw [wp_bind]
    exact (guarded_deliver chunk).wp h₁ fun _ run₂ h₂ => h₂

theorem guarded_turn : Guarded source limit o (turn o.view o.take) := by
  intro run h
  refine wp_turn (fun _ => ?_) fun _ _ => ?_
  · refine (guarded_openFile _).wp h fun opened run₁ h₁ => ?_
    have htried := h₁.put (f := { run₁.follower with firstOpen := false }) rfl rfl (.inl rfl)
    split
    · exact guarded_readOn _ htried
    · exact htried
  · refine guarded_checkRotation.wp h fun done run₁ h₁ => ?_
    split
    · exact h₁
    · exact guarded_readOn _ h₁

end Work

/-! ## Runs -/

namespace Follower

variable {source : Source} {limit : Int} {run : Run}

/-- What is left alone between two polls. -/
structure Rests (run : Run) (source : Source) (limit : Int) :
    Prop extends run.Bears source limit where
  sound : run.follower.Sound
  pending : 10 ∉ run.follower.pending

theorem rests_start (source : Source) (limit : Int) : Rests (start source limit) source limit where
  source_eq := rfl
  limit_eq := rfl
  few := .inl rfl
  counted := Run.counted_start source limit
  sound := nofun
  pending := List.not_mem_nil

theorem meet_guarded (h : Rests run source limit) (o : Occasion) :
    (meet run o).Ends (fun run' => Rests run' source limit)
    fun f run' => run'.GivesUp source limit o f := by
  have hbegin : Run.BearsOn { run with refusals := o.refusals } source limit o :=
    ⟨⟨h.source_eq, h.limit_eq, h.few, h.counted⟩, .refl _⟩
  have hpoll : (meet run o).Ends
      (fun run' => run'.BearsOn source limit o ∧ run'.follower.Sound ∧ 10 ∉ run'.follower.pending)
      (fun f run' => run'.GivesUp source limit o f) := by
    refine poll_ends (I := fun run' => run'.BearsOn source limit o)
      (fun run' h' => ?_) hbegin h.sound h.pending
    exact Work.guarded_turn.wp h' fun waits _ h'' => by cases waits <;> exact h''
  exact hpoll.mono (fun _ h' => ⟨h'.1.toBears, h'.2.1, h'.2.2⟩) fun _ _ => id

theorem follow_guarded (h : Rests run source limit) (os : List Occasion) :
    (follow run os).Ends (fun run' => Rests run' source limit)
      fun f run' => ∃ o ∈ os, run'.GivesUp source limit o f := by
  induction os generalizing run with
  | nil => exact follow_nil_ends h
  | cons o os ih =>
    refine follow_cons_ends ((meet_guarded h o).mono (fun run' h' => ?_) fun f run' hf => ?_)
    · refine (ih h').mono (fun _ => id) fun f run'' hf => ?_
      obtain ⟨o', ho', hf⟩ := hf
      exact ⟨o', List.mem_cons_of_mem o ho', hf⟩
    · exact ⟨o, List.mem_cons_self, hf⟩

/-- Whatever a follower meets, it waits with fewer failures in a row than are allowed, or has ended
for one of the causes; and the file can be closed in the end, whichever calls are refused. -/
theorem follow_ends (source : Source) (limit : Int) (os : List Occasion) :
    (follow (start source limit) os).Ends (fun run => run.Bears source limit)
        (fun f run => ∃ o ∈ os, run.GivesUp source limit o f) ∧
      ∀ run, Work.wp Work.close (fun _ run' => run'.follower.handle = none)
        (fun _ _ => False) run := by
  refine ⟨(follow_guarded (rests_start source limit) os).mono (fun _ h => h.toBears)
    fun _ _ => id, fun run => ?_⟩
  refine Work.wp_close_any.mono (fun _ run' h => ?_) fun _ _ h => h
  rw [h.1]

/-- A log that is cut below what was read of it; of the moves that a poll makes then, the third is
refused. -/
def cutLog : List Occasion := [
  ⟨⟨.file 7, fun _ => ⟨[97, 98, 99, 10], 1, 0⟩⟩, .none, fun _ => none⟩,
  ⟨⟨.file 7, fun _ => ⟨[97, 98], 2, 0⟩⟩,
    Refusals.none.set .seek ⟨2, 1, .inputOutput⟩, fun _ => none⟩]

/-- A single refused move ends following before any failure was counted. -/
theorem follow_cutLog :
    (follow (start ⟨"app", ⟨.none, ["app.log"]⟩, true, false, .web⟩ 1) cutLog).ending =
      .fails (.io ⟨.inputOutput, none⟩) ∧
    (follow (start ⟨"app", ⟨.none, ["app.log"]⟩, true, false, .web⟩ 1)
      cutLog).run.follower.failures = 0 := by
  constructor
  · rfl
  · rfl

end Follower

end LogRelay
