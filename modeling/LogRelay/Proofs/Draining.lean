import LogRelay.Proofs.Appending
import LogRelay.Proofs.Reached

/-!
# Leaving a file

A follower that sees another file at its path drains the open one: it reads what is left, chunk by
chunk, and delivers what is pending in the end as a line.  But draining ends as well where reading
is refused (`Refusals.readable`), and as the file is closed then, what was not read is lost, and the
line that was being read is cut.  `follow_leaves` says this of every state that a follower reaches;
nothing is lost if all that was left was read before a call was refused.
-/

namespace LogRelay

/-! ## How far reading gets -/

namespace Refusals

/-- How many chunks are read before one is refused, if one is. -/
def reads? (rs : Refusals) : Option Nat := (rs.next .readNext).findIdx? Option.isSome

/-- What is read of the octets that are left, chunk by chunk, until a call is refused. -/
def readable (rs : Refusals) (rest : Bytes) : Bytes :=
  match rs.reads? with
  | Option.none => rest
  | some k => rest.take (k * chunkSize)

variable {rs : Refusals} {rest : Bytes}

theorem readable_prefix (rs : Refusals) (rest : Bytes) : rs.readable rest <+: rest := by
  unfold readable
  split
  · exact List.prefix_rfl
  · exact List.take_prefix _ _

theorem readable_eq_iff :
    rs.readable rest = rest ↔ ∀ k, rs.reads? = some k → rest.length ≤ k * chunkSize := by
  unfold readable
  cases rs.reads? with
  | none => simp
  | some k => simp [List.take_eq_self_iff]

theorem Spares.reads?_eq_none (h : rs.Spares .readNext) : rs.reads? = Option.none :=
  List.findIdx?_eq_none_iff.2 fun outcome ho => by rw [h outcome ho]; rfl

theorem Spares.readable_eq (h : rs.Spares .readNext) (rest : Bytes) : rs.readable rest = rest := by
  rw [readable, h.reads?_eq_none]

end Refusals

namespace Run

variable {run : Run} {e : IoError}

theorem readable_of_refused (he : run.refusal? .readNext = some e) (rest : Bytes) :
    run.refusals.readable rest = [] := by
  obtain ⟨errno, hask, -⟩ := Option.map_eq_some_iff.1 he
  have hreads : run.refusals.reads? = some 0 := by
    unfold Refusals.ask at hask
    unfold Refusals.reads?
    cases hnext : run.refusals.next .readNext with
    | nil => simp [hnext] at hask
    | cons outcome outcomes =>
      rw [hnext] at hask
      obtain rfl : outcome = some errno := hask
      rfl
  rw [Refusals.readable, hreads]
  show rest.take (0 * chunkSize) = []
  rw [Nat.zero_mul, List.take_zero]

theorem readable_of_passed (hn : run.refusal? .readNext = none) (rest : Bytes) :
    run.refusals.readable rest =
      rest.take chunkSize ++ (run.asked .readNext).refusals.readable (rest.drop chunkSize) := by
  have hask := Option.map_eq_none_iff.1 hn
  have hreads : run.refusals.reads? = ((run.asked .readNext).refusals.reads?).map (· + 1) := by
    show _ = ((run.refusals.ask .readNext).2.reads?).map _
    unfold Refusals.ask at hask ⊢
    unfold Refusals.reads?
    cases hnext : run.refusals.next .readNext with
    | nil => simp [hnext]
    | cons outcome outcomes =>
      rw [hnext] at hask
      obtain rfl : outcome = none := hask
      simp [Refusals.schedule, List.findIdx?_cons]
  unfold Refusals.readable
  rw [hreads]
  cases (run.asked .readNext).refusals.reads? with
  | none => exact (List.take_append_drop _ _).symm
  | some k =>
    show rest.take ((k + 1) * chunkSize) =
      rest.take chunkSize ++ (rest.drop chunkSize).take (k * chunkSize)
    rw [Nat.succ_mul, Nat.add_comm, List.take_add]

/-- Calls of another kind leave what is read as it is. -/
theorem readable_asked_of_ne {kind : CallKind} (h : .readNext ≠ kind) (rest : Bytes) :
    (run.asked kind).refusals.readable rest = run.refusals.readable rest := by
  unfold Refusals.readable Refusals.reads?
  rw [next_asked_of_ne h]

end Run

/-! ## What is taken over -/

/-- What is read next in a file, behind all that was delivered so far. -/
def Run.onward (run : Run) (number : Nat) : Stretch := ⟨number, 0, run.lines, run.reopens⟩

/-- Octets were taken over behind what was pending, and the file is still open. -/
structure Run.Takes (run run' : Run) (octets : Bytes) : Prop where
  handle : run'.follower.handle.isSome
  tried : run'.follower.firstOpen = run.follower.firstOpen
  pending : run'.follower.pending = Lines.unfinished (run.follower.pending ++ octets)
  lines : run'.lines = run.lines ++ (Lines.complete (run.follower.pending ++ octets)).map lineText
  reopens : ∀ reason, run'.reopens reason = run.reopens reason

namespace Run

variable {run run' run'' : Run} {octets more : Bytes}

theorem onward_log {e : FollowEvent} (hl : e.line? = none) (hr : e.reopened? = none) (n : Nat) :
    (run.log e).onward n = run.onward n := by
  have hreopens : (run.log e).reopens = run.reopens := funext (reopens_log_of_eq_none hr)
  rw [onward, onward, hreopens, lines_log_of_eq_none hl]

/-- What is read behind the octets is told as if these were still pending. -/
theorem Takes.told_onward (h : run.Takes run' octets) (n : Nat) (more : Bytes) :
    (run'.onward n).told (run'.follower.pending ++ more) =
      (run.onward n).told (run.follower.pending ++ (octets ++ more)) := by
  show run'.lines ++ (Lines.complete (run'.follower.pending ++ more)).map lineText =
    run.lines ++ (Lines.complete (run.follower.pending ++ (octets ++ more))).map lineText
  rw [h.lines, h.pending, ← List.append_assoc run.follower.pending,
    Lines.complete_append (run.follower.pending ++ octets) more, List.map_append, List.append_assoc]

theorem Takes.trans (h : run.Takes run' octets) (h' : run'.Takes run'' more) :
    run.Takes run'' (octets ++ more) where
  handle := h'.handle
  tried := h'.tried.trans h.tried
  pending := by
    rw [h'.pending, h.pending, ← List.append_assoc,
      Lines.unfinished_append (run.follower.pending ++ octets)]
  lines := h'.lines.trans (h.told_onward 0 more)
  reopens reason := (h'.reopens reason).trans (h.reopens reason)

/-- Nothing was taken over. -/
theorem takes_nil (hh : run'.follower.handle.isSome) (hp : 10 ∉ run.follower.pending)
    (hpending : run'.follower.pending = run.follower.pending)
    (ht : run'.follower.firstOpen = run.follower.firstOpen)
    (hl : run'.lines = run.lines) (hr : ∀ reason, run'.reopens reason = run.reopens reason) :
    run.Takes run' [] where
  handle := hh
  tried := ht
  pending := by rw [hpending, List.append_nil, Lines.unfinished_of_notMem hp]
  lines := by rw [hl, List.append_nil, Lines.complete_of_notMem hp, List.map_nil, List.append_nil]
  reopens := hr

end Run

theorem Occasion.Stops.of_takes {o : Occasion} {run run' run'' : Run} {n : Nat}
    {octets more : Bytes} {f : Failure}
    (h : o.Stops (run'.onward n) (run'.follower.pending ++ more) f run'')
    (ht : run.Takes run' octets) :
    o.Stops (run.onward n) (run.follower.pending ++ (octets ++ more)) f run'' where
  cause := h.cause
  reopens reason := (h.reopens reason).trans (ht.reopens reason)
  lines := ht.told_onward n more ▸ h.lines

/-! ## Draining -/

/-- The file is read to its end and its unfinished line is delivered, but it is still open. -/
structure Run.Drained (run : Run) (s : Stretch) (bytes : Bytes) : Prop where
  handle : run.follower.handle.isSome
  tried : run.follower.firstOpen = false
  pending : run.follower.pending = []
  lines : run.lines = s.earlier ++ (Lines.all (bytes.drop s.start)).map lineText
  reopens : ∀ reason, run.reopens reason = s.reopens reason

/-- What is read next, when a file of which `bytes` were there is left for another one. -/
def Stretch.next (s : Stretch) (bytes : Bytes) (n : Nat) : Stretch where
  number := n
  start := 0
  earlier := s.earlier ++ (Lines.all (bytes.drop s.start)).map lineText
  reopens reason := s.reopens reason + if Reopening.rotated = reason then 1 else 0

/-- A file that was drained is left for another one when it is closed. -/
theorem Run.Drained.left {run run' : Run} {s : Stretch} {bytes : Bytes}
    (h : run.Drained s bytes) (n : Nat)
    (hf : run'.follower = { run.follower with handle := none }) (hl : run'.lines = run.lines)
    (hr : ∀ reason, run'.reopens reason = run.reopens reason) :
    (run'.log (.reopened .rotated)).follower.firstOpen = false ∧
      (run'.log (.reopened .rotated)).Waits (s.next bytes n).earlier (s.next bytes n).reopens := by
  have hfollower : (run'.log (.reopened .rotated)).follower =
      { run.follower with handle := none } := hf
  rw [hfollower]
  refine ⟨h.tried, ?_, ?_, ?_, fun reason => ?_⟩
  · rw [hfollower]
  · rw [hfollower]
    show 10 ∉ run.follower.pending
    rw [h.pending]
    exact List.not_mem_nil
  · rw [Run.lines_log_of_eq_none rfl, hl]
    exact h.lines
  · rw [Run.reopens_log_reopened, hr]
    exact congrArg (· + _) (h.reopens reason)

namespace Work

variable {o : Occasion} {run : Run} {h : Handle} {rest : Bytes}

theorem wp_deliver_takes (hh : run.follower.handle.isSome) (n : Nat) (chunk more : Bytes) :
    wp (deliver o.take chunk)
      (fun _ run' => run.Takes run' chunk ∧ run'.follower.handle = run.follower.handle ∧
        run'.refusals = run.refusals)
      (o.Stops (run.onward n) (run.follower.pending ++ (chunk ++ more))) run := by
  refine wp_deliver
    (wp_deliverLines (fun before l f hbefore hf => ⟨.inl (.line hf), fun reason => ?_, ?_⟩) ?_)
  · rw [Run.reopens_log_of_eq_none rfl, Run.reopens_logLines]
    rfl
  · rw [Run.lines_log_of_eq_none rfl, Run.lines_logLines]
    have hcomplete : before <+: Lines.complete (run.follower.pending ++ (chunk ++ more)) := by
      rw [← List.append_assoc, Lines.complete_append]
      exact ((List.prefix_append before [l]).trans hbefore).trans (List.prefix_append _ _)
    exact (List.prefix_append_right_inj _).2 (hcomplete.map lineText)
  · exact ⟨⟨hh, rfl, rfl, Run.lines_logLines _ _, Run.reopens_logLines _ _⟩, rfl, rfl⟩

/-- A chunk of what is left is read, or there is none, or reading is refused. -/
theorem wp_readChunk_rest (hh : run.follower.handle = some h) (hi : o.Within run)
    (hrest : h.rest (o.view.data h.number).bytes = rest) :
    wp (readChunk o.view)
      (fun chunk run' => run.Takes run' [] ∧
        if chunk = [] then run.refusals.readable rest = []
        else ∃ h', run'.follower.handle = some h' ∧ h'.number = h.number ∧
          run.refusals.readable rest =
            chunk ++ run'.refusals.readable (h'.rest (o.view.data h'.number).bytes) ∧
          (h'.rest (o.view.data h'.number).bytes).length < rest.length)
      (o.Stops (run.onward h.number) (run.follower.pending ++ run.refusals.readable rest)) run := by
  refine wp_readChunk hh (fun e he => ?_) fun hn => ?_
  · have hreadable := Run.readable_of_refused he rest
    have htold : run.lines <+: (run.onward h.number).told
        (run.follower.pending ++ run.refusals.readable rest) :=
      List.prefix_append _ _
    refine wp_recordFailure_stops (fun _ => rfl) htold (hi.troubled he) ⟨?_, hreadable⟩
    refine Run.takes_nil ?_ hi.pending rfl rfl (Run.lines_log_of_eq_none rfl) fun reason => ?_
    · show run.follower.handle.isSome
      rw [hh]
      rfl
    · exact Run.reopens_log_of_eq_none rfl reason
  · have hreadable := Run.readable_of_passed hn rest
    rw [← hrest, ← Handle.read_fst, ← Handle.rest_read, hrest] at hreadable
    refine ⟨Run.takes_nil rfl hi.pending rfl rfl rfl fun _ => rfl, ?_⟩
    split
    · next hnil =>
      -- nothing comes of a read of so many octets only if nothing is left
      have hnone : rest = [] := by
        rw [Handle.read_fst, hrest, List.take_eq_nil_iff] at hnil
        exact hnil.resolve_left (by decide)
      rw [hnone]
      exact List.prefix_nil.1 (Refusals.readable_prefix _ _)
    · next hsome =>
      have hread := List.length_pos_iff.2 hsome
      rw [Handle.read_fst, hrest, List.length_take] at hread
      refine ⟨_, rfl, Handle.number_read _ _ _, ?_, ?_⟩
      · rw [Handle.number_read]
        exact hreadable
      · rw [Handle.number_read, Handle.rest_read, hrest, List.length_drop]
        omega

/-- All is taken over that is read before a call is refused. -/
theorem wp_drainChunks {fuel : Nat} (hh : run.follower.handle = some h) (hi : o.Within run)
    (hrest : h.rest (o.view.data h.number).bytes = rest) (hfuel : rest.length < fuel) :
    wp (drainChunks o.view o.take fuel)
      (fun _ run' => run.Takes run' (run.refusals.readable rest))
      (o.Stops (run.onward h.number) (run.follower.pending ++ run.refusals.readable rest)) run := by
  induction fuel generalizing run h rest with
  | zero => exact absurd hfuel (Nat.not_lt_zero _)
  | succ fuel ih =>
    rw [drainChunks, wp_bind]
    refine ((wp_readChunk_rest hh hi hrest).within tame_readChunk hi).mono (fun chunk run₁ h₁ => ?_)
      fun _ _ h => h
    obtain ⟨⟨htakes₁, hleft⟩, hi₁⟩ := h₁
    cases chunk with
    | nil =>
      rw [if_pos rfl] at hleft
      rw [hleft]
      exact htakes₁
    | cons b bs =>
      show wp (deliver o.take (b :: bs) >>= fun _ => drainChunks o.view o.take fuel) _ _ run₁
      rw [if_neg (List.cons_ne_nil _ _)] at hleft
      obtain ⟨h', hh', hnumber, hreadable, hless⟩ := hleft
      rw [hreadable, wp_bind]
      refine ((wp_deliver_takes htakes₁.handle h.number (b :: bs) _).within
        (tame_deliver _) hi₁).mono (fun _ run₂ h₂ => ?_) fun _ _ hstops => hstops.of_takes htakes₁
      obtain ⟨⟨htakes₂, hh₂, hrefusals⟩, hi₂⟩ := h₂
      have hdrain := ih (hh₂.trans hh') hi₂ rfl (hless.trans_le (Nat.le_of_lt_succ hfuel))
      rw [hrefusals, hnumber] at hdrain
      have htakes : run.Takes run₂ (b :: bs) := htakes₁.trans htakes₂
      exact hdrain.mono (fun _ _ h₃ => hnumber ▸ htakes.trans h₃)
        fun _ _ hstops => hnumber ▸ hstops.of_takes htakes

/-- What is left is read until a call is refused, and what is pending then is delivered as a
line. -/
theorem wp_drain (hh : run.follower.handle = some h) (hi : o.Within run)
    (ht : run.follower.firstOpen = false) :
    wp (drain o.view o.take)
      (fun _ run' => run'.Drained (run.onward h.number)
        (run.follower.pending ++ run.refusals.readable (h.rest (o.view.data h.number).bytes)))
      (o.Stops (run.onward h.number)
        (run.follower.pending ++ run.refusals.readable (h.rest (o.view.data h.number).bytes)))
          run := by
  have hfuel : (h.rest (o.view.data h.number).bytes).length <
      remaining o.view run.follower + 1 := by
    rw [remaining_eq_left hh, Handle.length_rest]
    exact Nat.lt_succ_self _
  unfold drain
  rw [wp_bind, wp_follower, wp_bind]
  refine (wp_drainChunks hh hi rfl hfuel).mono (fun _ run₁ h₁ => ?_) fun _ _ h => h
  generalize run.refusals.readable (h.rest (o.view.data h.number).bytes) = octets at h₁ ⊢
  rw [wp_bind, wp_follower]
  by_cases hp : run₁.follower.pending = []
  · rw [if_neg (by simp [hp])]
    refine ⟨h₁.handle, h₁.tried.trans ht, hp, ?_, h₁.reopens⟩
    show run₁.lines = run.lines ++ (Lines.all (run.follower.pending ++ octets)).map lineText
    rw [Lines.all, ← h₁.pending, if_pos hp, List.append_nil, h₁.lines]
  · rw [if_pos (by simp [hp]), wp_bind]
    refine wp_deliverLine (fun f hf => ⟨.inl (.line hf), fun reason => ?_, ?_⟩) fun _ => ?_
    · exact (Run.reopens_log_of_eq_none rfl reason).trans (h₁.reopens reason)
    · rw [Run.lines_log_of_eq_none rfl, h₁.lines]
      exact List.prefix_rfl
    · refine ⟨h₁.handle, h₁.tried.trans ht, rfl, ?_, fun reason => ?_⟩
      · show (run₁.log (.line (lineText run₁.follower.pending))).lines =
          run.lines ++ (Lines.all (run.follower.pending ++ octets)).map lineText
        rw [Run.lines_log, Lines.all, ← h₁.pending, if_neg hp, List.map_append, h₁.lines,
          List.append_assoc]
        rfl
      · exact (Run.reopens_log_of_eq_none rfl reason).trans (h₁.reopens reason)

/-- The open file is drained and left for another one. -/
theorem wp_rotate (hh : run.follower.handle = some h) (hi : o.Within run)
    (ht : run.follower.firstOpen = false) {octets : Bytes}
    (hoctets : octets =
      run.follower.pending ++ run.refusals.readable (h.rest (o.view.data h.number).bytes))
    (n : Nat) :
    wp (rotate o.view o.take)
      (fun _ run' => run'.follower.firstOpen = false ∧
        run'.Waits ((run.onward h.number).next octets n).earlier
          ((run.onward h.number).next octets n).reopens)
      (o.Stops (run.onward h.number) octets) run := by
  have hi' : o.Within (run.log (.noticed .rotated)) := ⟨hi.pending, hi.spares⟩
  have hdrain := @wp_drain o (run.log (.noticed .rotated)) h hh hi' ht
  rw [Run.onward_log rfl rfl] at hdrain
  unfold rotate
  rw [wp_bind, wp_emit, wp_bind]
  refine hdrain.mono (fun _ run₁ h₁ => ?_) fun _ _ h => hoctets ▸ h
  have hdrained : run₁.Drained (run.onward h.number) octets := hoctets ▸ h₁
  rw [wp_bind]
  refine wp_close hdrained.handle (fun e _ => ?_) fun _ => ?_
  · rw [wp_emit]
    exact hdrained.left n rfl (Run.lines_log_of_eq_none rfl) (Run.reopens_log_of_eq_none rfl)
  · rw [wp_emit]
    exact hdrained.left n rfl rfl fun _ => rfl

/-- A check that finds another file at the path leaves the open one. -/
theorem wp_checkRotation_other {n : Nat} (hh : run.follower.handle = some h) (hi : o.Within run)
    (ht : run.follower.firstOpen = false) (hid : run.follower.identity = some h.number)
    (hfound : run.error? o.view .stat = none) (hnumber : o.view.number? = some n)
    (hn : n ≠ h.number) {octets : Bytes}
    (hoctets : octets =
      run.follower.pending ++ run.refusals.readable (h.rest (o.view.data h.number).bytes)) :
    wp (checkRotation o.view o.take)
      (fun done run' => done = true ∧ run'.follower.firstOpen = false ∧
        run'.Waits ((run.onward h.number).next octets n).earlier
          ((run.onward h.number).next octets n).reopens)
      (o.Stops (run.onward h.number) octets) run := by
  have hsame {m : Nat} (hm : o.view.number? = some m)
      (hidentity : run.follower.identity = some m) : False := by
    rw [hid, ← hm, hnumber] at hidentity
    exact hn (Option.some.inj hidentity).symm
  refine wp_checkRotation (fun e he => ?_) (fun e he => ?_) (fun why hwhy => ?_) (fun _ _ _ _ => ?_)
    (fun m hm _ hidentity => (hsame hm hidentity).elim)
    fun m hm _ hidentity => (hsame hm hidentity).elim
  · rw [hfound] at he
    cases he
  · rw [hfound] at he
    cases he
  · rw [View.number?_of_unnameable hwhy] at hnumber
    cases hnumber
  · have hstat : .readNext ≠ CallKind.stat := nofun
    rw [← Run.readable_asked_of_ne hstat] at hoctets
    have hrotate := @wp_rotate o (run.asked .stat) h hh (hi.asked .stat) ht octets hoctets n
    exact hrotate.mono (fun _ _ h => ⟨rfl, h⟩) fun _ _ h => h

end Work

/-! ## The poll that sees another file -/

/-- What is told of the file that is left comes before what is told of the next one. -/
theorem Stretch.told_prefix_next (s : Stretch) (bytes : Bytes) (n : Nat) (more : Bytes) :
    s.told bytes <+: (s.next bytes n).told more := by
  show s.earlier ++ (Lines.complete (bytes.drop s.start)).map lineText <+:
    s.earlier ++ (Lines.all (bytes.drop s.start)).map lineText ++ _
  rw [Lines.all, List.map_append, List.append_assoc, List.append_assoc]
  exact (List.prefix_append_right_inj _).2 (List.prefix_append _ _)

namespace Follower

variable {o : Occasion} {run : Run} {h : Handle} {n : Nat}

/-- A poll that meets another file drains the open one, as far as reading is not refused, and then
reads the new one. -/
theorem meet_leaves (hh : run.follower.handle = some h) (hp : 10 ∉ run.follower.pending)
    (ht : run.follower.firstOpen = false) (hid : run.follower.identity = some h.number)
    (ho : ∀ kind, kind ≠ .readNext → o.refusals.Spares kind) (htarget : o.view.target = .file n)
    (hn : n ≠ h.number) {octets : Bytes}
    (hoctets : octets =
      run.follower.pending ++ o.refusals.readable (h.rest (o.view.data h.number).bytes)) :
    (meet run o).Ends
      (fun run' => run'.Reads ((run.onward h.number).next octets n) (o.view.data n).bytes ∧
        run'.Rests o (o.view.data n).bytes)
      (fun f run' => o.Breaks f run' ∧
        run'.lines <+: ((run.onward h.number).next octets n).told (o.view.data n).bytes) := by
  set begun : Run := { run with refusals := o.refusals } with hbegun
  set s := (run.onward h.number).next octets n with hs
  have hi : o.Within begun := o.within_schedule hp
  have hserves : o.Serves n := ⟨.inl htarget, ho .seek nofun, ho .readHead nofun⟩
  have hbound := length_lt_turnBound htarget begun
  obtain ⟨fuel, hfuel⟩ : ∃ fuel, turnBound o.view begun = fuel + 2 :=
    Nat.exists_eq_add_of_le' (by omega)
  have hnumber := View.number?_of_file htarget
  have hfound : begun.error? o.view .stat = none :=
    Run.error?_of_found (hi.refusal? (ho .stat nofun)) hnumber
  show (turns o.view o.take (turnBound o.view begun) begun).Ends _ _
  rw [hfuel]
  have hcheck :=
    (@Work.wp_checkRotation_other o begun h n hh hi ht hid hfound hnumber hn octets hoctets).within
      (Work.tame_checkRotation o.take) hi
  refine turns_succ_ends (Work.wp_turn (fun hclosed => ?_)
    fun _ _ => hcheck.mono (fun done run₁ h₁ => ?_) fun f run' hstops => ?_)
  · have hopen : run.follower.handle = none := hclosed
    rw [hh] at hopen
    cases hopen
  · obtain ⟨⟨rfl, hfirst, hwaits⟩, hi₁⟩ := h₁
    show (turns o.view o.take (fuel + 1) run₁).Ends _ _
    have hopens : run₁.Opens o.view n := ⟨htarget, hi₁.refusal? (ho .openFile nofun),
      hi₁.refusal? (ho .readHead nofun), hi₁.refusal? (ho .seek nofun)⟩
    have hstart : s.start =
        if run₁.follower.firstOpen && !run₁.follower.source.fromStart then
          (o.view.data n).bytes.length else 0 := by
      rw [hfirst]
      rfl
    refine (turns_waits (s := s) hwaits hi₁ hserves (fun _ => hstart) fun _ => ?_).mono
      (fun run' h' => ?_) fun f run' hstops => ⟨hstops.breaks hserves, hstops.lines⟩
    · show (o.view.data n).bytes.length < fuel
      omega
    · obtain ⟨-, hread⟩ | ⟨hno, -⟩ := h'
      · exact hread
      · exact absurd hopens hno
  · exact ⟨hstops.breaks hserves, hstops.lines.trans (Stretch.told_prefix_next _ _ _ _)⟩

end Follower

/-! ## Runs -/

/-- Behind what was delivered before come the lines of the octets that were left, an unfinished one
included, and then those of the next file, which is open. -/
structure Run.Switches (run run' : Run) (octets : Bytes) (n : Nat) (bytes : Bytes) : Prop where
  handle : ∃ h, run'.follower.handle = some h ∧ h.number = n
  lines : run'.lines = run.lines ++ (Lines.all octets).map lineText ++
    (Lines.complete (bytes.take run'.follower.offset)).map lineText
  pending : run'.follower.pending = Lines.unfinished (bytes.take run'.follower.offset)
  rotated : run'.reopens .rotated = run.reopens .rotated + 1
  truncated : run'.reopens .truncated = run.reopens .truncated

theorem Run.switches_of_reads {run run' : Run} {octets bytes : Bytes} {number n : Nat}
    (h : run'.Reads ((run.onward number).next octets n) bytes) :
    run.Switches run' octets n bytes where
  handle := by
    obtain ⟨handle, hh, hn, -⟩ := h.handle
    exact ⟨handle, hh, hn⟩
  lines := h.lines
  pending := h.pending
  rotated := h.reopens .rotated
  truncated := h.reopens .truncated

namespace Follower

/-- A follower in any state that sees another file at its path delivers what is pending and what it
can read of the open file, as lines, an unfinished last one included, and then the lines of the new
file, each once and in their order.  It can read all that is left unless a call is refused
before. -/
theorem follow_leaves {source : Source} {limit : Int} {run : Run} {h : Handle} {o : Occasion}
    {os : List Occasion}
    {n : Nat} (hr : Reached source limit run) (hh : run.follower.handle = some h)
    (htarget : o.view.target = .file n) (hn : n ≠ h.number)
    (hpaths : ∀ p ∈ os, p.view.target = .file n ∨ ∃ e, p.view.target = .unreachable e)
    (hspares : ∀ p ∈ o :: os, ∀ kind, kind ≠ .readNext → p.refusals.Spares kind)
    (hgrows : Grows n (o :: os)) :
    (follow run (o :: os)).Ends
      (fun run' =>
        run.Switches run' (run.follower.pending ++
          o.refusals.readable (h.rest (o.view.data h.number).bytes)) n
          ((os.getLastD o).view.data n).bytes ∧
        run'.Rests (os.getLastD o) ((os.getLastD o).view.data n).bytes)
      (fun f run' => ∃ p ∈ o :: os, p.Breaks f run' ∧
        run'.lines <+: run.lines ++ (Lines.all (run.follower.pending ++
          o.refusals.readable (h.rest (o.view.data h.number).bytes))).map lineText ++
          (Lines.complete (p.view.data n).bytes).map lineText) ∧
    (o.refusals.readable (h.rest (o.view.data h.number).bytes) =
      h.rest (o.view.data h.number).bytes ↔
      ∀ k, o.refusals.reads? = some k →
        (h.rest (o.view.data h.number).bytes).length ≤ k * chunkSize) := by
  have hupright := hr.upright
  obtain ⟨hid, -⟩ := hupright.sound h hh
  obtain ⟨htried, -, -⟩ := hupright.placed h hh
  refine ⟨?_, Refusals.readable_eq_iff⟩
  set octets :=
    run.follower.pending ++ o.refusals.readable (h.rest (o.view.data h.number).bytes) with hoctets
  have hmeet :=
    meet_leaves hh hupright.pending htried hid (hspares o List.mem_cons_self) htarget hn hoctets
  have hserves : ∀ p ∈ os, p.Serves n := fun p hp =>
    have hp' := hspares p (List.mem_cons_of_mem o hp)
    ⟨hpaths p hp, hp' .seek nofun, hp' .readHead nofun⟩
  refine follow_cons_ends (hmeet.mono (fun run₁ h₁ => ?_)
    fun f run' h' => ⟨o, List.mem_cons_self, h'⟩)
  refine (follow_reads h₁.1 h₁.2 hserves hgrows).mono (fun run' h' => ?_) fun f run' h' => ?_
  · exact ⟨Run.switches_of_reads h'.1, h'.2⟩
  · obtain ⟨p, hp, hstops⟩ := h'
    exact ⟨p, List.mem_cons_of_mem o hp, hstops.breaks (hserves p hp), hstops.lines⟩

/-- A log that is renamed away in the middle of a line; when this is seen, reading is refused behind
one chunk. -/
def movedLog : List Occasion := [
  ⟨⟨.file 1, fun _ => ⟨[97, 10, 98], 1, 0⟩⟩, .none, fun _ => none⟩,
  ⟨⟨.file 2, fun n => if n = 1 then ⟨[97, 10, 98, 99, 10, 100], 2, 0⟩ else ⟨[101, 10], 3, 0⟩⟩,
    Refusals.none.set .readNext ⟨1, 1, .inputOutput⟩, fun _ => none⟩]

/-- What the poll that sees the other file begins with. -/
def movedRun : Run :=
  (follow (start ⟨"app", ⟨.none, ["app.log"]⟩, true, false, .web⟩ 3) (movedLog.take 1)).run

theorem follow_movedLog :
    Reached ⟨"app", ⟨.none, ["app.log"]⟩, true, false, .web⟩ 3 movedRun ∧
    movedRun.follower.handle = some ⟨1, 3, [], 0⟩ ∧
    (∀ p ∈ movedLog.drop 1, ∀ kind, kind ≠ .readNext → p.refusals.Spares kind) ∧
    Grows 2 (movedLog.drop 1) ∧
    (follow movedRun (movedLog.drop 1)).Ends
      (fun run => movedRun.Switches run [98, 99, 10, 100] 2 [101, 10])
      (fun f run => ∃ p ∈ movedLog.drop 1, p.Breaks f run) := by
  have hreached : Reached ⟨"app", ⟨.none, ["app.log"]⟩, true, false, .web⟩ 3 movedRun :=
    Reached.follow .start rfl
  have hhandle : movedRun.follower.handle = some ⟨1, 3, [], 0⟩ := rfl
  have hspares : ∀ p ∈ movedLog.drop 1, ∀ kind, kind ≠ .readNext → p.refusals.Spares kind := by
    intro p hp kind hkind
    obtain rfl := List.mem_singleton.1 hp
    have hnone : (Refusals.none.set .readNext ⟨1, 1, .inputOutput⟩).next kind = [] := if_neg hkind
    intro outcome ho
    rw [hnone] at ho
    cases ho
  have hgrows : Grows 2 (movedLog.drop 1) := List.pairwise_singleton _ _
  obtain ⟨hfollow, hall⟩ := follow_leaves hreached hhandle rfl (by decide) (by simp) hspares hgrows
  have hreads : (Refusals.none.set .readNext ⟨1, 1, .inputOutput⟩).reads? = some 1 := rfl
  have hreadable : (Refusals.none.set .readNext ⟨1, 1, .inputOutput⟩).readable [99, 10, 100] =
      [99, 10, 100] := by
    refine hall.2 fun k hk => ?_
    obtain rfl := Option.some.inj (hreads.symm.trans hk)
    decide
  have hoctets : movedRun.follower.pending ++
      (Refusals.none.set .readNext ⟨1, 1, .inputOutput⟩).readable [99, 10, 100] =
        [98, 99, 10, 100] := by
    rw [hreadable]
    rfl
  refine ⟨hreached, hhandle, hspares, hgrows, hfollow.mono (fun run h => ?_) fun f run h => ?_⟩
  · rw [← hoctets]
    exact h.1
  · obtain ⟨p, hp, hbreaks, -⟩ := h
    exact ⟨p, hp, hbreaks⟩

/-- The same log when reading is refused at once. -/
def tornLog : List Occasion := [
  ⟨⟨.file 1, fun _ => ⟨[97, 10, 98], 1, 0⟩⟩, .none, fun _ => none⟩,
  ⟨⟨.file 2, fun n => if n = 1 then ⟨[97, 10, 98, 99, 10, 100], 2, 0⟩ else ⟨[101, 10], 3, 0⟩⟩,
    Refusals.none.set .readNext ⟨0, 1, .inputOutput⟩, fun _ => none⟩]

/-- A line is cut in two, and the rest of it and the line behind it are lost. -/
theorem follow_tornLog :
    (follow (start ⟨"app", ⟨.none, ["app.log"]⟩, true, false, .web⟩ 10) tornLog).Ends
      (fun run => run.lines = ["a", "b", "e"] ∧ run.reopens .rotated = 1) (fun _ _ => False) := by
  decide +kernel

end Follower

end LogRelay
