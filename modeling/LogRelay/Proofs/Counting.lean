import LogRelay.Proofs.Turns

/-!
# The count of failures

A follower keeps a count of failures.  Here the count is compared with the calls that were made,
whatever the files did and whichever calls were refused: `Follower.chronicle` lists what all calls
of a run came to, and `failuresSince` counts in that list the failures behind the last opening or
reading that went well.

At every wait the two agree and no part of the run ever reached the limit; and a run ends with the
error of a call at the very failure that reaches it (`Follower.follow_counts`), wherever in a poll
that is.
-/

namespace LogRelay

/-! ## What calls come to -/

/-- What a call came to. -/
structure Outcome where
  kind : CallKind
  error : Option IoError

namespace Outcome

/-- The error by which a call is a failure.  To find nothing at the path is none, and a file is
closed even if that is refused. -/
def failure? (c : Outcome) : Option IoError :=
  match c.kind with
  | .close => none
  | .openFile | .stat => c.error.filter fun e => e.errno ≠ .noEntry
  | .readHead | .readNext | .seek => c.error

theorem failure?_of_none {c : Outcome} (h : c.error = none) : c.failure? = none := by
  unfold failure?
  rw [h]
  cases c.kind <;> rfl

end Outcome

/-- The last calls, the last one first, read a chunk or opened a file and prepared it for
reading. -/
def Succeeds : List Outcome → Bool
  | ⟨.readNext, none⟩ :: _ => true
  | ⟨.seek, none⟩ :: ⟨.readHead, none⟩ :: ⟨.openFile, none⟩ :: _ => true
  | _ => false

/-- How many calls failed since a file was opened or a chunk was read; the last call stands
first. -/
def failuresSince : List Outcome → Nat
  | [] => 0
  | c :: cs =>
    if Succeeds (c :: cs) then 0 else failuresSince cs + if c.failure?.isSome then 1 else 0

/-- At no time did as many calls in a row fail as end following. -/
def Few (limit : Int) (cs : List Outcome) : Prop :=
  ∀ part, part <:+ cs → (failuresSince part : Int) < max limit 1

section

variable {c : Outcome} {cs : List Outcome} {e : IoError} {limit : Int}

theorem failuresSince_of_succeeds (h : Succeeds (c :: cs)) : failuresSince (c :: cs) = 0 := by
  rw [failuresSince, if_pos h]

theorem failuresSince_of_passed (hs : Succeeds (c :: cs) = false) (hf : c.failure? = none) :
    failuresSince (c :: cs) = failuresSince cs := by
  simp [failuresSince, hs, hf]

theorem succeeds_of_failed (hf : c.failure? = some e) : Succeeds (c :: cs) = false := by
  have herror : c.error ≠ none := fun hnone => by simp [Outcome.failure?_of_none hnone] at hf
  obtain ⟨kind, error⟩ := c
  obtain ⟨e', rfl⟩ := Option.ne_none_iff_exists'.1 herror
  unfold Succeeds
  cases kind <;> rfl

/-- A failure counts for one, whatever was before. -/
theorem failuresSince_of_failed (hf : c.failure? = some e) :
    failuresSince (c :: cs) = failuresSince cs + 1 := by
  simp [failuresSince, succeeds_of_failed hf, hf]

theorem failuresSince_close (error : Option IoError) :
    failuresSince (⟨.close, error⟩ :: cs) = failuresSince cs :=
  failuresSince_of_passed rfl rfl

theorem few_nil : Few limit [] := by
  intro part hpart
  obtain rfl := List.suffix_nil.1 hpart
  show (0 : Int) < max limit 1
  omega

theorem Few.cons (h : Few limit cs) (hc : (failuresSince (c :: cs) : Int) < max limit 1) :
    Few limit (c :: cs) := by
  intro part hpart
  obtain rfl | hpart := List.suffix_cons_iff.1 hpart
  · exact hc
  · exact h part hpart

end

/-! ## What a run tells -/

/-- What a call came to on an occasion: it was refused, or what is at the path brought an error
about. -/
def Occasion.outcome (o : Occasion) (path : Text) (call : Call) : Outcome where
  kind := call.kind
  error := (call.refusal.map fun errno => ⟨errno, none⟩).or (o.view.error? path call.kind)

/-- What there is before a poll, and what it meets. -/
structure Past where
  source : Source
  limit : Int
  occasion : Occasion
  calls : List Call
  outcomes : List Outcome

namespace Run

/-- Up to now the calls of a poll, and those before it, came to `told`. -/
structure Traces (run : Run) (p : Past) (told : List Outcome) : Prop where
  source_eq : run.follower.source = p.source
  limit_eq : run.follower.limit = p.limit
  calls : ∃ made, run.calls = made ++ p.calls ∧
    told = made.map (p.occasion.outcome p.source.path.text) ++ p.outcomes

/-- The run goes on: the count is that of the failures in what the calls came to. -/
structure Counts (run : Run) (p : Past) (told : List Outcome) : Prop extends run.Traces p told where
  failures : run.follower.failures = failuresSince told
  few : Few p.limit told

/-- The failure of a call is still to be counted; the file it befell may have been closed since. -/
structure Owes (run : Run) (p : Past) (e : IoError) (after : List Outcome) (c : Outcome)
    (before : List Outcome) : Prop extends run.Traces p (after ++ c :: before) where
  closed : after = [] ∨ after = [⟨.close, none⟩]
  failed : c.failure? = some e
  failures : run.follower.failures = failuresSince before
  few : Few p.limit before

/-- Why a run has ended whose calls came to `told`, on an occasion. -/
inductive Ended (run : Run) (source : Source) (limit : Int) (o : Occasion)
    (told : List Outcome) : Failure → Prop
  /-- A failure was counted that made as many in a row as end following. -/
  | limit {after before : List Outcome} {c : Outcome} {e : IoError}
      (told_eq : told = after ++ c :: before)
      (closed : after = [] ∨ after = [⟨.close, none⟩]) (last : c.failure? = some e)
      (failures : run.follower.failures = failuresSince told)
      (reached : (run.follower.failures : Int) = max limit 1) (few : Few limit before) :
      run.Ended source limit o told (.tail source.path.text e.message)
  /-- A line was not taken. -/
  | line {t : Text} {f : Failure} (refused : o.take t = some f)
      (failures : run.follower.failures = failuresSince told) (few : Few limit told) :
      run.Ended source limit o told f
  /-- The path cannot be the name of a file. -/
  | name {why : Unnameable} (target : o.view.target = .unnameable why)
      (failures : run.follower.failures = failuresSince told) (few : Few limit told) :
      run.Ended source limit o told why.failure
  /-- The move was refused to the start of a file that had been looked at. -/
  | restart {e : IoError} {before : List Outcome} (told_eq : told = ⟨.seek, some e⟩ :: before)
      (looked : [⟨.seek, none⟩, ⟨.readHead, none⟩, ⟨.seek, none⟩] <+: before)
      (failures : run.follower.failures = failuresSince before) (few : Few limit before) :
      run.Ended source limit o told (.io e)
  /-- A file that could not be prepared for reading could not be closed either. -/
  | abandoned {e other : IoError} {c : Outcome} {before : List Outcome}
      (told_eq : told = ⟨.close, some e⟩ :: c :: before)
      (kind : c.kind = .readHead ∨ c.kind = .seek)
      (failed : c.failure? = some other) (failures : run.follower.failures = failuresSince before)
      (few : Few limit before) : run.Ended source limit o told (.io e)

variable {run : Run} {p : Past} {e : IoError} {told : List Outcome} {kind : CallKind}

/-! ### Calls -/

theorem Traces.asked (h : run.Traces p told) (kind : CallKind) :
    (run.asked kind).Traces p (⟨kind, run.error? p.occasion.view kind⟩ :: told) := by
  obtain ⟨made, hmade, htold⟩ := h.calls
  have hcalls : (run.asked kind).calls = ⟨kind, (run.refusals.ask kind).1⟩ :: run.calls := rfl
  refine ⟨h.source_eq, h.limit_eq, ⟨kind, (run.refusals.ask kind).1⟩ :: made, ?_, ?_⟩
  · rw [hcalls, hmade, List.cons_append]
  · rw [List.map_cons, List.cons_append, ← htold, ← h.source_eq]
    rfl

theorem Traces.put (h : run.Traces p told) {f : Follower} (hs : f.source = run.follower.source)
    (hl : f.limit = run.follower.limit) : (run.put f).Traces p told :=
  ⟨hs.trans h.source_eq, hl.trans h.limit_eq, h.calls⟩

/-- A call that neither failed nor completed an opening or a reading leaves the count as it is. -/
theorem Counts.asked (h : run.Counts p told) (kind : CallKind)
    (hf : Outcome.failure? ⟨kind, run.error? p.occasion.view kind⟩ = none)
    (hs : Succeeds (⟨kind, run.error? p.occasion.view kind⟩ :: told) = false) :
    (run.asked kind).Counts p (⟨kind, run.error? p.occasion.view kind⟩ :: told) := by
  have hsame := failuresSince_of_passed hs hf
  refine ⟨h.toTraces.asked kind, h.failures.trans hsame.symm, h.few.cons ?_⟩
  rw [hsame]
  exact h.few told List.suffix_rfl

/-- A call that went well and completed nothing leaves the count as it is. -/
theorem Counts.passed (h : run.Counts p told) (he : run.error? p.occasion.view kind = none)
    (hs : Succeeds (⟨kind, none⟩ :: told) = false) :
    (run.asked kind).Counts p (⟨kind, none⟩ :: told) := by
  have hasked := h.asked kind (by rw [he, Outcome.failure?_of_none rfl]) (by rwa [he])
  rwa [he] at hasked

/-- A call that failed is one to count. -/
theorem Counts.owes (h : run.Counts p told) (he : run.error? p.occasion.view kind = some e)
    (hf : Outcome.failure? ⟨kind, some e⟩ = some e) :
    (run.asked kind).Owes p e [] ⟨kind, some e⟩ told := by
  have htraces := h.toTraces.asked kind
  rw [he] at htraces
  exact ⟨htraces, .inl rfl, hf, h.failures, h.few⟩

/-- An opening or a reading that was completed begins the count anew. -/
theorem Counts.completed (h : run.Counts p told) (he : run.error? p.occasion.view kind = none)
    (hs : Succeeds (⟨kind, none⟩ :: told)) {f : Follower} (hsource : f.source = run.follower.source)
    (hlimit : f.limit = run.follower.limit) (hf : f.failures = 0) :
    ((run.asked kind).put f).Counts p (⟨kind, none⟩ :: told) := by
  have htraces := (h.toTraces.asked kind).put (f := f) hsource hlimit
  rw [he] at htraces
  have hzero := failuresSince_of_succeeds hs
  refine ⟨htraces, hf.trans hzero.symm, h.few.cons ?_⟩
  rw [hzero]
  omega

/-- The count of what was called up to a failure and its file's closing. -/
theorem Owes.failuresSince_eq {after before : List Outcome} {c : Outcome}
    (h : run.Owes p e after c before) :
    failuresSince (after ++ c :: before) = run.follower.failures + 1 := by
  have hfailed : failuresSince (c :: before) = _ := failuresSince_of_failed h.failed
  obtain rfl | rfl := h.closed
  · rw [List.nil_append, hfailed, h.failures]
  · rw [List.singleton_append, failuresSince_close, hfailed, h.failures]

theorem Owes.few_of_lt {after before : List Outcome} {c : Outcome} (h : run.Owes p e after c before)
    (hless : (run.follower.failures : Int) + 1 < max p.limit 1) :
    Few p.limit (after ++ c :: before) := by
  have hc : Few p.limit (c :: before) := by
    refine h.few.cons ?_
    rw [failuresSince_of_failed h.failed, ← h.failures]
    exact_mod_cast hless
  obtain rfl | rfl := h.closed
  · exact hc
  · refine hc.cons ?_
    rw [failuresSince_close]
    exact hc _ List.suffix_rfl

/-! ### Other changes -/

theorem Counts.put (h : run.Counts p told) {f : Follower} (hs : f.source = run.follower.source)
    (hl : f.limit = run.follower.limit) (hf : f.failures = run.follower.failures) :
    (run.put f).Counts p told :=
  ⟨h.toTraces.put hs hl, hf.trans h.failures, h.few⟩

theorem Counts.log (h : run.Counts p told) (event : FollowEvent) : (run.log event).Counts p told :=
  ⟨⟨h.source_eq, h.limit_eq, h.calls⟩, h.failures, h.few⟩

theorem Counts.logLines (h : run.Counts p told) (lines : List Bytes) :
    (run.logLines lines).Counts p told :=
  ⟨⟨h.source_eq, h.limit_eq, h.calls⟩, h.failures, h.few⟩

/-- The run goes on, and its count is the one that the calls tell. -/
def Agrees (run : Run) (p : Past) : Prop := ∃ told, run.Counts p told

/-- The run has ended for one of the causes. -/
def Over (p : Past) (f : Failure) (run : Run) : Prop :=
  ∃ told, run.Traces p told ∧ run.Ended p.source p.limit p.occasion told f

end Run

/-! ## The parts of the work -/

namespace Work

variable {α : Type} {p : Past} {run : Run} {told : List Outcome}

theorem wp_recordFailure_owes {e : IoError} {after before : List Outcome} {c : Outcome}
    (h : run.Owes p e after c before) :
    wp (recordFailure e) (fun _ run' => run'.Agrees p) (Run.Over p) run := by
  have hfailures : (run.failed e).follower.failures = run.follower.failures + 1 := rfl
  have hcount : (run.failed e).follower.failures = failuresSince (after ++ c :: before) :=
    h.failuresSince_eq.symm
  have htraces : (run.failed e).Traces p (after ++ c :: before) :=
    ⟨h.source_eq, h.limit_eq, h.calls⟩
  have hfew := h.few before List.suffix_rfl
  rw [← h.failures] at hfew
  refine wp_recordFailure (fun hlimit => ?_) fun hlimit => ?_
  · rw [h.limit_eq] at hlimit
    refine ⟨_, htraces, ?_⟩
    rw [h.source_eq]
    exact .limit rfl h.closed h.failed hcount (by omega) h.few
  · rw [h.limit_eq] at hlimit
    exact ⟨_, htraces, hcount, h.few_of_lt (by omega)⟩

/-- The failure of a call is counted when the call has been made. -/
theorem wp_recordFailure_counts {kind : CallKind} {e : IoError} (h : run.Counts p told)
    (he : run.error? p.occasion.view kind = some e)
    (hf : Outcome.failure? ⟨kind, some e⟩ = some e) :
    wp (recordFailure e) (fun _ run' => run'.Agrees p) (Run.Over p) (run.asked kind) :=
  wp_recordFailure_owes (h.owes he hf)

theorem wp_deliverLine_counts (h : run.Counts p told) (line : Bytes) :
    wp (deliverLine p.occasion.take line) (fun _ run' => run'.Counts p told) (Run.Over p) run := by
  refine wp_deliverLine (fun f hf => ?_) fun _ => h.log _
  have hlog := h.log (.lineRefused (lineText line))
  exact ⟨told, hlog.toTraces, .line hf hlog.failures hlog.few⟩

theorem wp_deliver_counts (h : run.Counts p told) (chunk : Bytes) :
    wp (deliver p.occasion.take chunk) (fun _ run' => run'.Counts p told) (Run.Over p) run := by
  have htaken : (run.put (taking run.follower chunk)).Counts p told := h.put rfl rfl rfl
  refine wp_deliver (wp_deliverLines (fun before l f _ hf => ?_) (htaken.logLines _))
  have hlog := (htaken.logLines before).log (.lineRefused (lineText l))
  exact ⟨told, hlog.toTraces, .line hf hlog.failures hlog.few⟩

theorem wp_readChunk_counts (h : run.Counts p told) :
    wp (readChunk p.occasion.view) (fun _ run' => run'.Agrees p) (Run.Over p) run := by
  cases hh : run.follower.handle with
  | none =>
    unfold readChunk
    rw [wp_bind, wp_follower, hh]
    exact ⟨told, h⟩
  | some handle =>
    refine wp_readChunk hh (fun e he => ?_) fun hn => ?_
    · exact wp_recordFailure_counts h (Run.error?_of_refusal? he) rfl
    · exact ⟨_, h.completed (Run.error?_of_passed hn) rfl rfl rfl rfl⟩

theorem wp_close_counts (h : run.Counts p told) :
    wp close (fun _ run' => run'.Agrees p) (Run.Over p) run := by
  by_cases hh : run.follower.handle.isSome
  · have hasked := h.asked .close rfl rfl
    refine wp_close hh (fun e _ => ?_) fun _ => ?_
    · exact ⟨_, (hasked.log _).put rfl rfl rfl⟩
    · exact ⟨_, hasked.put rfl rfl rfl⟩
  · unfold close
    rw [wp_bind, wp_follower, if_neg hh]
    exact ⟨told, h⟩

/-! ### Opening -/

/-- A file that could not be prepared is closed before its failure is counted. -/
theorem wp_abandon_counts {e : IoError} {c : Outcome} (h : run.Owes p e [] c told)
    (hkind : c.kind = .readHead ∨ c.kind = .seek) :
    wp (abandon e) (fun _ run' => run'.Agrees p) (Run.Over p) run := by
  have htraces := h.toTraces.asked .close
  refine wp_abandon (fun e' he => ?_) fun hn => ?_
  · rw [Run.error?_of_refusal? he] at htraces
    exact ⟨_, htraces, .abandoned rfl hkind h.failed h.failures h.few⟩
  · rw [Run.error?_of_passed hn] at htraces
    exact wp_recordFailure_owes ⟨htraces, .inr rfl, h.failed, h.failures, h.few⟩

theorem wp_prepare_counts (h : run.Counts p (⟨.openFile, none⟩ :: told))
    (number : Nat) (toEnd : Bool) :
    wp (prepare p.occasion.view number toEnd) (fun _ run' => run'.Agrees p) (Run.Over p) run := by
  have hread (hr : run.refusal? .readHead = none) := h.passed (Run.error?_of_passed hr) rfl
  refine wp_prepare (fun e he => ?_) (fun hr e he => ?_) fun hr hs => ?_
  · exact wp_abandon_counts (h.owes (Run.error?_of_refusal? he) rfl) (.inl rfl)
  · exact wp_abandon_counts ((hread hr).owes (Run.error?_of_refusal? he) rfl) (.inr rfl)
  · have hopened :=
      (hread hr).completed (f := opening run.follower (p.occasion.view.data number) number toEnd)
      (Run.error?_of_passed hs) rfl rfl rfl rfl
    exact ⟨_, hopened.log _⟩

theorem wp_openFile_counts (h : run.Counts p told) (toEnd : Bool) :
    wp (openFile p.occasion.view toEnd) (fun _ run' => run'.Agrees p) (Run.Over p) run := by
  refine wp_openFile (fun e he hn => ?_) (fun e he hn => ?_) (fun why hwhy he => ?_)
    fun n _ he => ?_
  · have hasked := h.asked .openFile (by simp [he, Outcome.failure?, hn]) (by rw [he]; rfl)
    exact ⟨_, hasked.log _⟩
  · exact wp_recordFailure_counts h he (by simp [Outcome.failure?, hn])
  · have hasked := h.passed he rfl
    exact ⟨_, hasked.toTraces, .name hwhy hasked.failures hasked.few⟩
  · exact wp_prepare_counts (h.passed he rfl) n toEnd

/-! ### Checking -/

theorem wp_drainChunks_counts (fuel : Nat) (h : run.Counts p told) :
    wp (drainChunks p.occasion.view p.occasion.take fuel)
      (fun _ run' => run'.Agrees p) (Run.Over p) run := by
  induction fuel generalizing run told with
  | zero => exact ⟨told, h⟩
  | succ fuel ih =>
    rw [drainChunks, wp_bind]
    refine (wp_readChunk_counts h).mono (fun chunk run₁ h₁ => ?_) fun _ _ h => h
    obtain ⟨told₁, h₁⟩ := h₁
    split
    · rw [wp_bind]
      exact (wp_deliver_counts h₁ chunk).mono (fun _ run₂ h₂ => ih h₂) fun _ _ h => h
    · exact ⟨told₁, h₁⟩

theorem wp_drain_counts (h : run.Counts p told) :
    wp (drain p.occasion.view p.occasion.take) (fun _ run' => run'.Agrees p) (Run.Over p) run := by
  unfold drain
  rw [wp_bind, wp_follower, wp_bind]
  refine (wp_drainChunks_counts _ h).mono (fun _ run₁ h₁ => ?_) fun _ _ h => h
  obtain ⟨told₁, h₁⟩ := h₁
  rw [wp_bind, wp_follower]
  split
  · rw [wp_bind]
    exact (wp_deliverLine_counts h₁ _).mono (fun _ run₂ h₂ => ⟨told₁, h₂.put rfl rfl rfl⟩)
      fun _ _ h => h
  · exact ⟨told₁, h₁⟩

theorem wp_rotate_counts (h : run.Counts p told) :
    wp (rotate p.occasion.view p.occasion.take) (fun _ run' => run'.Agrees p) (Run.Over p) run := by
  unfold rotate
  rw [wp_bind, wp_emit, wp_bind]
  refine (wp_drain_counts (h.log _)).mono (fun _ run₁ h₁ => ?_) fun _ _ h => h
  obtain ⟨told₁, h₁⟩ := h₁
  rw [wp_bind]
  refine (wp_close_counts h₁).mono (fun _ run₂ h₂ => ?_) fun _ _ h => h
  obtain ⟨told₂, h₂⟩ := h₂
  exact ⟨told₂, h₂.log _⟩

/-- A refused look is a failure to count; after one that was not refused its three calls are
told. -/
theorem wp_readHead_counts {handle : Handle} (hh : run.follower.handle = some handle)
    (h : run.Counts p (⟨.stat, none⟩ :: told)) :
    wp (readHead p.occasion.view)
      (fun found run' => (∀ e, found = .error e → ∃ c before, run'.Owes p e [] c before) ∧
        ∀ head, found = .ok head →
          run'.Counts p (⟨.seek, none⟩ :: ⟨.readHead, none⟩ :: ⟨.seek, none⟩ ::
            ⟨.stat, none⟩ :: told))
      (Run.Over p) run := by
  have hsought (hs : run.refusal? .seek = none) :
      (atStart run handle).Counts p (⟨.seek, none⟩ :: ⟨.stat, none⟩ :: told) :=
    (h.passed (Run.error?_of_passed hs) rfl).put rfl rfl rfl
  have hread (hs : run.refusal? .seek = none)
      (hr : (atStart run handle).refusal? .readHead = none) :
      (behindHead run p.occasion.view handle).Counts p
        (⟨.readHead, none⟩ :: ⟨.seek, none⟩ :: ⟨.stat, none⟩ :: told) :=
    ((hsought hs).passed (Run.error?_of_passed hr) rfl).put rfl rfl rfl
  refine wp_readHead hh (fun e he => ⟨?_, nofun⟩) (fun hs e he => ⟨?_, nofun⟩)
    (fun hs hr e he => ⟨?_, nofun⟩) fun hs hr hb => ⟨nofun, fun _ _ => ?_⟩
  · rintro _ ⟨rfl⟩
    exact ⟨_, _, h.owes (Run.error?_of_refusal? he) rfl⟩
  · rintro _ ⟨rfl⟩
    exact ⟨_, _, (hsought hs).owes (Run.error?_of_refusal? he) rfl⟩
  · rintro _ ⟨rfl⟩
    exact ⟨_, _, (hread hs hr).owes (Run.error?_of_refusal? he) rfl⟩
  · exact ((hread hs hr).passed (Run.error?_of_passed hb) rfl).put rfl rfl rfl

theorem wp_restart_counts {stamp : Stamp} {head : Bytes}
    (h : run.Counts p (⟨.seek, none⟩ :: ⟨.readHead, none⟩ :: ⟨.seek, none⟩ :: told)) :
    wp (restart stamp head) (fun _ run' => run'.Agrees p) (Run.Over p) run := by
  have hrestarting : (restarting run stamp head).Counts p _ :=
    (h.log (.noticed .truncated)).put rfl rfl rfl
  refine wp_restart (fun e he => ?_) fun hn => ?_
  · have htraces := hrestarting.toTraces.asked .seek
    rw [Run.error?_of_refusal? he] at htraces
    exact ⟨_, htraces, .restart rfl ⟨told, rfl⟩ hrestarting.failures h.few⟩
  · have hback := (hrestarting.passed (Run.error?_of_passed hn) rfl).put
      (f := { (restarting run stamp head).follower with
        handle := run.follower.handle.map (·.seek 0) }) rfl rfl rfl
    exact ⟨_, hback.log _⟩

theorem wp_checkRotation_counts {handle : Handle} (hh : run.follower.handle = some handle)
    (h : run.Counts p told) :
    wp (checkRotation p.occasion.view p.occasion.take)
      (fun _ run' => run'.Agrees p) (Run.Over p) run := by
  refine wp_checkRotation (fun e he hn => ?_) (fun e he hn => ?_) (fun why hwhy he => ?_)
    (fun n _ he _ => ?_) (fun n _ he _ _ _ => ?_) fun n _ he _ _ => ?_
  · exact ⟨_, h.asked .stat (by simp [he, Outcome.failure?, hn]) (by rw [he]; rfl)⟩
  · exact wp_recordFailure_counts h he (by simp [Outcome.failure?, hn])
  · have hasked := h.passed he rfl
    exact ⟨_, hasked.toTraces, .name hwhy hasked.failures hasked.few⟩
  · exact wp_rotate_counts (h.passed he rfl)
  · exact ⟨_, h.passed he rfl⟩
  · have hh' : (run.asked .stat).follower.handle = some handle := hh
    refine (wp_readHead_counts hh' (h.passed he rfl)).mono (fun found run₁ h₁ => ?_) fun _ _ h => h
    obtain ⟨herror, hok⟩ := h₁
    refine ⟨fun e hfound => ?_, fun head hfound _ => ?_, fun head hfound _ => ?_⟩
    · obtain ⟨c, before, howes⟩ := herror e hfound
      exact wp_recordFailure_owes howes
    · exact ⟨_, (hok head hfound).put rfl rfl rfl⟩
    · exact wp_restart_counts (hok head hfound)

/-! ### Turns -/

theorem wp_readOn_counts (h : run.Counts p told) :
    wp (readOn p.occasion.view p.occasion.take) (fun _ run' => run'.Agrees p) (Run.Over p) run := by
  unfold readOn
  rw [wp_bind]
  refine (wp_readChunk_counts h).mono (fun chunk run₁ h₁ => ?_) fun _ _ h => h
  obtain ⟨told₁, h₁⟩ := h₁
  split
  · exact ⟨told₁, h₁⟩
  · rw [wp_bind]
    exact (wp_deliver_counts h₁ chunk).mono (fun _ run₂ h₂ => ⟨told₁, h₂⟩) fun _ _ h => h

theorem wp_turn_counts (h : run.Counts p told) :
    wp (turn p.occasion.view p.occasion.take) (fun _ run' => run'.Agrees p) (Run.Over p) run := by
  refine wp_turn (fun _ => ?_) fun handle hh => ?_
  · refine (wp_openFile_counts h _).mono (fun opened run₁ h₁ => ?_) fun _ _ h => h
    obtain ⟨told₁, h₁⟩ := h₁
    have htried : (run₁.put { run₁.follower with firstOpen := false }).Counts p told₁ :=
      h₁.put rfl rfl rfl
    split
    · exact wp_readOn_counts htried
    · exact ⟨told₁, htried⟩
  · refine (wp_checkRotation_counts hh h).mono (fun done run₁ h₁ => ?_) fun _ _ h => h
    obtain ⟨told₁, h₁⟩ := h₁
    split
    · exact ⟨told₁, h₁⟩
    · exact wp_readOn_counts h₁

end Work

/-! ## Runs -/

namespace Follower

variable {source : Source} {limit : Int} {run : Run} {told : List Outcome} {o : Occasion}

/-- What the calls of a poll came to, the last one first. -/
def outcomes (run : Run) (o : Occasion) : List Outcome :=
  ((meet run o).run.calls.take ((meet run o).run.calls.length - run.calls.length)).map
    (o.outcome run.follower.source.path.text)

/-- What all calls of a run came to, the last one first. -/
def chronicle (run : Run) : List Occasion → List Outcome
  | [] => []
  | o :: os =>
    match (meet run o).ending with
    | .waits => chronicle (meet run o).run os ++ outcomes run o
    | _ => outcomes run o

/-- Between two polls the count is that of the failures in what all calls came to. -/
structure Tells (run : Run) (source : Source) (limit : Int) (told : List Outcome) : Prop where
  source_eq : run.follower.source = source
  limit_eq : run.follower.limit = limit
  failures : run.follower.failures = failuresSince told
  few : Few limit told
  sound : run.follower.Sound
  pending : 10 ∉ run.follower.pending

theorem tells_start (source : Source) (limit : Int) :
    Tells (start source limit) source limit [] where
  source_eq := rfl
  limit_eq := rfl
  failures := rfl
  few := few_nil
  sound := nofun
  pending := List.not_mem_nil

theorem outcomes_eq {made : List Call} (h : (meet run o).run.calls = made ++ run.calls) :
    outcomes run o = made.map (o.outcome run.follower.source.path.text) := by
  have hlength : (made ++ run.calls).length - run.calls.length = made.length := by
    rw [List.length_append, Nat.add_sub_cancel]
  rw [outcomes, h, hlength, List.take_left]

theorem meet_counts (h : Tells run source limit told) (o : Occasion) :
    (meet run o).Ends (fun run' => Tells run' source limit (outcomes run o ++ told))
      fun f run' => run'.Ended source limit o (outcomes run o ++ told) f := by
  let p : Past := ⟨source, limit, o, run.calls, told⟩
  have hbegin : Run.Counts { run with refusals := o.refusals } p told :=
    ⟨⟨h.source_eq, h.limit_eq, [], rfl, rfl⟩, h.failures, h.few⟩
  have hpoll : (meet run o).Ends
      (fun run' => run'.Agrees p ∧ run'.follower.Sound ∧ 10 ∉ run'.follower.pending)
      (Run.Over p) := by
    refine poll_ends (I := fun run' => run'.Agrees p) (fun run' h' => ?_)
      ⟨told, hbegin⟩ h.sound h.pending
    obtain ⟨told', h'⟩ := h'
    refine (Work.wp_turn_counts h').mono (fun waits _ h'' => ?_) fun _ _ h => h
    cases waits <;> exact h''
  have htold {told' : List Outcome} (ht : (meet run o).run.Traces p told') :
      told' = outcomes run o ++ told := by
    obtain ⟨made, hmade, heq⟩ := ht.calls
    rw [outcomes_eq hmade, heq, h.source_eq]
  cases hpoll with
  | waits hw h' =>
    obtain ⟨⟨told', hcounts⟩, hsound, hpending⟩ := h'
    obtain rfl := htold hcounts.toTraces
    exact .waits hw ⟨hcounts.source_eq, hcounts.limit_eq, hcounts.failures, hcounts.few,
      hsound, hpending⟩
  | fails hf h' =>
    obtain ⟨told', htraces, hended⟩ := h'
    obtain rfl := htold htraces
    exact .fails hf hended

theorem follow_tells (h : Tells run source limit told) (os : List Occasion) :
    (follow run os).Ends (fun run' => Tells run' source limit (chronicle run os ++ told))
      fun f run' => ∃ o ∈ os, run'.Ended source limit o (chronicle run os ++ told) f := by
  induction os generalizing run told with
  | nil => exact follow_nil_ends h
  | cons o os ih =>
    rw [follow, chronicle]
    cases meet_counts h o with
    | waits hw h' =>
      rw [hw]
      dsimp only
      rw [List.append_assoc]
      refine (ih h').mono (fun _ h => h) fun f run' hf => ?_
      obtain ⟨o', ho', hended⟩ := hf
      exact ⟨o', List.mem_cons_of_mem o ho', hended⟩
    | fails hf h' =>
      rw [hf]
      dsimp only
      exact .fails hf ⟨o, List.mem_cons_self, h'⟩

/-- Whatever a follower meets, at every wait its count is the number of calls that failed since a
file was opened or a chunk was read, and no such number ever was as large as ends following.  It
ends with the error of a call, and the path, at the failure that makes the number as large; and
otherwise only because a line was not taken, the path is not the name of a file, or one of two calls
was refused that are not counted. -/
theorem follow_counts (source : Source) (limit : Int) (os : List Occasion) :
    (follow (start source limit) os).Ends
      (fun run => (run.follower.failures : Int) < max limit 1 ∧
        run.follower.failures = failuresSince (chronicle (start source limit) os) ∧
        Few limit (chronicle (start source limit) os))
      (fun f run => ∃ o ∈ os, run.Ended source limit o (chronicle (start source limit) os) f) := by
  have htells := follow_tells (tells_start source limit) os
  rw [List.append_nil] at htells
  refine htells.mono (fun run h => ⟨?_, h.failures, h.few⟩) fun _ _ h => h
  rw [h.failures]
  exact h.few _ List.suffix_rfl

end Follower

end LogRelay
