import LogRelay.Proofs.Reading
import LogRelay.Proofs.Turns

/-!
# States of a follower at work

`Follower.Reached` holds of every state between two turns: of a follower that has taken any turns,
each with what it saw and any calls refused.  In such a state the open handle is one of the file
that was opened last, nothing that is pending is a line, and the handle stands at the offset, unless
the run has strayed (`Reached.upright`).
-/

namespace LogRelay

/-! ## Where a handle stands -/

namespace Handle

/-- What is in the window was fetched from the file. -/
def Anchored (h : Handle) : Prop := h.window.length ≤ h.fetched

variable {h : Handle}

theorem Anchored.seek (ha : h.Anchored) (target : Nat) : (h.seek target).Anchored := by
  unfold Handle.seek
  split
  · exact ha
  · exact Nat.zero_le _

theorem Anchored.read (ha : h.Anchored) (bytes : Bytes) (count : Nat) :
    (h.read bytes count).2.Anchored := by
  unfold Handle.read
  split
  · exact ha
  · dsimp only
    split
    · exact Nat.le_add_left _ _
    · exact Nat.zero_le _

/-- A move ends where it was sent to, inside the window or not. -/
theorem position_seek (ha : h.Anchored) (target : Nat) : (h.seek target).position = target := by
  unfold Anchored at ha
  unfold Handle.seek
  split
  · rename_i hin
    simp only [Bool.and_eq_true, decide_eq_true_eq] at hin
    obtain ⟨⟨-, hfrom⟩, hto⟩ := hin
    simp only [windowStart] at hfrom
    simp only [position, length_ahead, windowStart]
    omega
  · rfl

/-- Reading moves a handle behind what was read. -/
theorem position_read (ha : h.Anchored) (bytes : Bytes) (count : Nat) :
    (h.read bytes count).2.position = h.position + (h.read bytes count).1.length := by
  have hlen := length_ahead h
  unfold Anchored at ha
  unfold Handle.read
  split
  · simp only [position, length_ahead, List.length_take]
    omega
  · dsimp only
    split
    · rename_i hk
      have hmod : (count - h.ahead.length) % blockSize ≤ count - h.ahead.length := Nat.mod_le _ _
      simp only [position, length_ahead, List.length_take, List.length_drop,
        List.length_append] at *
      omega
    · simp only [position, length_ahead, List.length_take, List.length_drop, List.length_append,
        List.length_nil] at *
      omega

end Handle

/-! ## What work keeps -/

namespace Run

/-- An open handle stands so many octets behind the offset, unless the run has strayed. -/
def Placed (run : Run) (ahead : Nat) : Prop := ∀ h, run.follower.handle = some h →
  run.follower.firstOpen = false ∧ h.Anchored ∧
  (run.Strayed ∨ h.position = run.follower.offset + ahead)

variable {run run' : Run} {ahead : Nat}

theorem Placed.mono (h : run.Placed ahead) (hh : run'.follower.handle = run.follower.handle)
    (ht : run'.follower.firstOpen = run.follower.firstOpen)
    (ho : run'.follower.offset = run.follower.offset)
    (hc : run.calls <:+ run'.calls) : run'.Placed ahead := by
  intro handle hhandle
  obtain ⟨htried, hanchored, hplace⟩ := h handle (hh ▸ hhandle)
  rw [ht, ho]
  exact ⟨htried, hanchored, hplace.imp_left fun hs => hs.mono hc⟩

theorem Placed.asked (h : run.Placed ahead) (kind : CallKind) : (run.asked kind).Placed ahead :=
  h.mono rfl rfl rfl (List.suffix_cons _ _)

theorem placed_of_closed (h : run.follower.handle = none) : run.Placed ahead := by
  intro handle hh
  rw [h] at hh
  cases hh

end Run

namespace Work

variable {view : View} {take : Taker} {run : Run}

theorem wp_recordFailure_placed {e : IoError} {ahead : Nat} (h : run.Placed ahead) :
    wp (recordFailure e) (fun _ run' => run'.Placed ahead) (fun _ _ => True) run :=
  wp_recordFailure (fun _ => trivial) fun _ => h.mono rfl rfl rfl List.suffix_rfl

theorem wp_readChunk_placed (h : run.Placed 0) :
    wp (readChunk view) (fun chunk run' => run'.Placed chunk.length) (fun _ _ => True) run := by
  cases hh : run.follower.handle with
  | none =>
    unfold readChunk
    rw [wp_bind, wp_follower, hh]
    exact h
  | some handle =>
    refine wp_readChunk hh (fun e _ => wp_recordFailure_placed (h.asked _)) fun _ => ?_
    rintro _ ⟨rfl⟩
    obtain ⟨htried, hanchored, hplace⟩ := h.asked .readNext handle hh
    refine ⟨htried, hanchored.read _ _, hplace.imp_right fun hposition => ?_⟩
    rw [Handle.position_read hanchored, hposition]
    rfl

theorem wp_deliver_placed {chunk : Bytes} (h : run.Placed chunk.length) :
    wp (deliver take chunk) (fun _ run' => run'.Placed 0) (fun _ _ => True) run := by
  refine wp_deliver (wp_deliverLines (fun _ _ _ _ _ => trivial) ?_)
  exact h

theorem wp_readOn_placed (h : run.Placed 0) :
    wp (readOn view take) (fun _ run' => run'.Placed 0) (fun _ _ => True) run := by
  unfold readOn
  rw [wp_bind]
  refine (wp_readChunk_placed h).mono (fun chunk run₁ h₁ => ?_) fun _ _ h => h
  cases chunk with
  | nil => exact h₁
  | cons b rest =>
    show wp (deliver take (b :: rest) >>= fun _ => pure false) _ _ run₁
    rw [wp_bind]
    exact (wp_deliver_placed h₁).mono (fun _ _ h₂ => h₂) fun _ _ h => h

/-- A look at how the file begins comes back to the offset, or strays. -/
theorem wp_readHead_placed (h : run.Placed 0) :
    wp (readHead view) (fun _ run' => run'.Placed 0) (fun _ _ => True) run := by
  cases hh : run.follower.handle with
  | none =>
    unfold readHead
    rw [wp_bind, wp_follower, hh]
    exact h
  | some handle =>
    obtain ⟨htried, hanchored, -⟩ := h handle hh
    have hread := (hanchored.seek 0).read (view.data handle.number).bytes headSize
    refine wp_readHead hh (fun e _ => h.asked _) (fun hs e he => ?_) (fun hs hr e he => ?_)
      fun _ _ _ => ?_
    · rintro _ ⟨rfl⟩
      exact ⟨htried, hanchored.seek 0, .inl (strayed_of_head hs he)⟩
    · rintro _ ⟨rfl⟩
      exact ⟨htried, hread, .inl (strayed_of_back hs hr he)⟩
    · rintro _ ⟨rfl⟩
      exact ⟨htried, hread.seek _, .inr (Handle.position_seek hread _)⟩

theorem wp_restart_placed {stamp : Stamp} {head : Bytes} (h : run.Placed 0) :
    wp (restart stamp head) (fun _ run' => run'.Placed 0) (fun _ _ => True) run := by
  refine wp_restart (fun _ _ => trivial) fun _ => ?_
  intro handle hhandle
  obtain ⟨before, hh, rfl⟩ := Option.map_eq_some_iff.1 hhandle
  obtain ⟨htried, hanchored, -⟩ := h before hh
  exact ⟨htried, hanchored.seek 0, .inr (Handle.position_seek hanchored 0)⟩

theorem wp_checkRotation_placed (h : run.Placed 0) (hp : 10 ∉ run.follower.pending) :
    wp (checkRotation view take) (fun _ run' => run'.Placed 0) (fun _ _ => True) run := by
  have hasked := h.asked .stat
  have hp' : 10 ∉ (run.asked .stat).follower.pending := hp
  refine wp_checkRotation (fun _ _ _ => hasked) (fun _ _ _ => wp_recordFailure_placed hasked)
    (fun _ _ _ => trivial) (fun _ _ _ _ => ?_) (fun _ _ _ _ _ _ => hasked) fun n _ _ _ _ => ?_
  · exact (wp_rotate_closed hp').mono (fun _ _ h' => Run.placed_of_closed h'.1) fun _ _ h' => h'
  · refine (wp_readHead_placed hasked).mono
      (fun found run₁ h₁ => ⟨fun e _ => ?_, fun head _ _ => ?_, fun head _ _ => ?_⟩)
      fun _ _ h' => h'
    · exact wp_recordFailure_placed h₁
    · exact h₁.mono rfl rfl rfl List.suffix_rfl
    · exact wp_restart_placed h₁

theorem wp_openFile_placed (hclosed : run.follower.handle = none) (toEnd : Bool) :
    wp (openFile view toEnd)
      (fun _ run' => (run'.put { run'.follower with firstOpen := false }).Placed 0)
      (fun _ _ => True) run := by
  have habandon (e : IoError) {run' : Run} (hh : run'.follower.handle = none) :
      wp (abandon e) (fun _ run' => (run'.put { run'.follower with firstOpen := false }).Placed 0)
        (fun _ _ => True) run' :=
    wp_abandon (fun _ _ => trivial) fun _ =>
      wp_recordFailure (fun _ => trivial) fun _ => Run.placed_of_closed hh
  refine wp_openFile (fun _ _ _ => Run.placed_of_closed hclosed) (fun e _ _ => ?_)
    (fun _ _ _ => trivial) fun n _ _ => ?_
  · exact wp_recordFailure (fun _ => trivial) fun _ => Run.placed_of_closed hclosed
  · refine wp_prepare (fun e _ => habandon e hclosed) (fun _ e _ => habandon e hclosed)
      fun _ _ => ?_
    rintro _ ⟨rfl⟩
    exact ⟨rfl, (standing_at _ _ _).2.window_le, .inr rfl⟩

theorem wp_turn_placed (h : run.Placed 0) (hp : 10 ∉ run.follower.pending) :
    wp (turn view take) (fun _ run' => run'.Placed 0) (fun _ _ => True) run := by
  refine wp_turn (fun hclosed => ?_) fun _ _ => ?_
  · refine (wp_openFile_placed hclosed _).mono (fun opened run₁ h₁ => ?_) fun _ _ h => h
    cases opened with
    | true => exact wp_readOn_placed h₁
    | false => exact h₁
  · refine (wp_checkRotation_placed h hp).mono (fun done run₁ h₁ => ?_) fun _ _ h => h
    cases done with
    | true => exact h₁
    | false => exact wp_readOn_placed h₁

end Work

/-! ## Reached states -/

/-- What is kept between two turns. -/
structure Run.Upright (run : Run) (source : Source) (limit : Int) : Prop where
  source_eq : run.follower.source = source
  limit_eq : run.follower.limit = limit
  sound : run.follower.Sound
  pending : 10 ∉ run.follower.pending
  placed : run.Placed 0

namespace Follower

/-- The states of a follower between two turns, whatever it sees in them, whichever calls are
refused and whoever takes the lines. -/
inductive Reached (source : Source) (limit : Int) : Run → Prop
  | start : Reached source limit (start source limit)
  | schedule {run : Run} (refusals : Refusals) (h : Reached source limit run) :
      Reached source limit { run with refusals }
  | turn {run run' : Run} {view : View} {take : Taker} {waits : Bool} (h : Reached source limit run)
      (ht : Work.turn view take run = .ok waits run') : Reached source limit run'

variable {source : Source} {limit : Int} {run : Run}

theorem Reached.upright (h : Reached source limit run) : run.Upright source limit := by
  induction h with
  | start => exact ⟨rfl, rfl, nofun, List.not_mem_nil, Run.placed_of_closed rfl⟩
  | schedule _ _ ih => exact ⟨ih.source_eq, ih.limit_eq, ih.sound, ih.pending, ih.placed⟩
  | @turn run run' view take waits _ ht ih =>
    obtain ⟨bound, -, hl⟩ := exists_lasts view run
    have hturn :=
      ((Work.wp_turn_lasts ih.sound ih.pending hl).and (Work.tame_turn take ih.pending)).and
      (Work.wp_turn_placed ih.placed ih.pending)
    unfold Work.wp at hturn
    rw [ht] at hturn
    obtain ⟨⟨⟨hsound, -⟩, hworks⟩, hplaced⟩ := hturn
    exact ⟨hworks.source.trans ih.source_eq, hworks.limit.trans ih.limit_eq, hsound,
      hworks.pending, hplaced⟩

/-- A run that has not strayed has its handle at the offset. -/
theorem Reached.position_eq (h : Reached source limit run) {handle : Handle}
    (hh : run.follower.handle = some handle) (hs : ¬ run.Strayed) :
    handle.position = run.follower.offset :=
  (h.upright.placed handle hh).2.2.resolve_left hs

theorem Reached.turns (h : Reached source limit run) {view : View} {take : Taker} {fuel : Nat}
    (hw : (turns view take fuel run).ending = .waits) :
    Reached source limit (turns view take fuel run).run := by
  induction fuel generalizing run with
  | zero => cases hw
  | succ fuel ih =>
    rw [Follower.turns] at hw ⊢
    cases ht : Work.turn view take run with
    | error f run' =>
      rw [ht] at hw
      cases hw
    | ok waits run' =>
      rw [ht] at hw
      cases waits with
      | true => exact .turn h ht
      | false => exact ih (.turn h ht) hw

/-- Every wait of a run is a state that is reached. -/
theorem Reached.follow (h : Reached source limit run) {os : List Occasion}
    (hw : (follow run os).ending = .waits) : Reached source limit (follow run os).run := by
  induction os generalizing run with
  | nil => exact h
  | cons o os ih =>
    rw [Follower.follow] at hw ⊢
    cases hmeet : (meet run o).ending with
    | waits =>
      simp only [hmeet] at hw ⊢
      exact ih (Reached.turns (.schedule o.refusals h) hmeet) hw
    | fails f => simp [hmeet] at hw
    | unfinished => simp [hmeet] at hw

end Follower

end LogRelay
