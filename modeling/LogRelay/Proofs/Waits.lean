import LogRelay.Proofs.Composition
import LogRelay.Proofs.Reached

/-!
# From one wait to the next

Whatever a follower has met before and whatever it finds, a poll comes to its end: neither the bound
on its turns nor that on the chunks of a drain cuts anything off (`turns_eq_poll`,
`drainChunks_of_lt`).

If no call is refused, the poll waits with no file open or with the open one read to its end.  On
the way it leaves a file at most once, and begins the open one again at most once, never both.
There is one exception: a window that was filled before the file was cut still holds what is no
longer there (`Follower.Stale`).  It is taken for the file when this is begun again, and the file
must be begun once more.  Only a refused call leaves anything in a window, so this cannot happen in
two polls in a row (`poll_reaches_wait`).
-/

namespace LogRelay

/-! ## Beginnings -/

namespace Run

/-- How often reading was begun again, in another file or in the same one. -/
def beginnings (run : Run) : Nat := run.reopens .rotated + run.reopens .truncated

variable {run run' : Run}

theorem beginnings_congr (h : run'.events = run.events) : run'.beginnings = run.beginnings := by
  rw [beginnings, beginnings, reopens_congr h, reopens_congr h]

theorem beginnings_log {e : FollowEvent} (h : e.reopened? = none) :
    (run.log e).beginnings = run.beginnings := by
  rw [beginnings, beginnings, reopens_log_of_eq_none h, reopens_log_of_eq_none h]

theorem beginnings_log_reopened (run : Run) (reason : Reopening) :
    (run.log (.reopened reason)).beginnings = run.beginnings + 1 := by
  rw [beginnings, beginnings, reopens_log_reopened, reopens_log_reopened]
  cases reason with
  | rotated => simp only [if_true, reduceCtorEq, if_false]; omega
  | truncated => simp only [if_true, reduceCtorEq, if_false]; omega

end Run

namespace Work

variable {α : Type} {view : View} {take : Taker}

/-- The work does not begin reading again. -/
def Steady (w : Work α) : Prop := ∀ run,
  wp w (fun _ run' => run'.beginnings = run.beginnings)
    (fun _ run' => run'.beginnings = run.beginnings) run

theorem composes_steady (take : Taker) : Composes take Steady where
  pure _ _ := rfl
  throw _ _ := rfl
  bind hw hk run := by
    rw [wp_bind]
    refine (hw run).mono (fun b run' h => ?_) fun _ _ h => h
    exact (hk b run').mono (fun _ _ h' => h'.trans h) fun _ _ h' => h'.trans h
  follower _ := rfl
  update _ _ := Run.beginnings_congr rfl
  ask _ _ := Run.beginnings_congr rfl
  emit _ hr _ := Run.beginnings_log hr
  deliverLine _ _ := wp_deliverLine (fun _ _ => Run.beginnings_log rfl)
    fun _ => Run.beginnings_log rfl

theorem wp_rotate_begins (run : Run) :
    wp (rotate view take) (fun _ run' => run'.beginnings = run.beginnings + 1)
      (fun _ run' => run'.beginnings = run.beginnings) run := by
  have hnoticed : (run.log (.noticed .rotated)).beginnings = run.beginnings :=
    Run.beginnings_log rfl
  have hdrain : Steady (drain view take) := (composes_steady take).drain
  have hclose : Steady close := (composes_steady take).close
  unfold rotate
  rw [wp_bind, wp_emit, wp_bind]
  refine (hdrain _).mono (fun _ run₁ h₁ => ?_) fun _ _ h₁ => h₁.trans hnoticed
  rw [wp_bind]
  refine (hclose _).mono (fun _ run₂ h₂ => ?_) fun _ _ h₂ => (h₂.trans h₁).trans hnoticed
  rw [wp_emit, Run.beginnings_log_reopened, h₂, h₁, hnoticed]

theorem wp_restart_begins (run : Run) (stamp : Stamp) (head : Bytes) :
    wp (restart stamp head) (fun _ run' => run'.beginnings = run.beginnings + 1)
      (fun _ run' => run'.beginnings = run.beginnings) run := by
  have hevents : ((restarting run stamp head).asked .seek).events =
      (run.log (.noticed .truncated)).events := rfl
  have hnoticed := (Run.beginnings_congr hevents).trans (Run.beginnings_log rfl)
  refine wp_restart (fun _ _ => hnoticed) fun _ => ?_
  rw [Run.beginnings_log_reopened]
  exact congrArg (· + 1) ((Run.beginnings_congr rfl).trans hnoticed)

/-- A check begins reading again exactly if the turn is over with it. -/
theorem wp_checkRotation_begins (run : Run) :
    wp (checkRotation view take)
      (fun done run' => run'.beginnings = run.beginnings + if done then 1 else 0)
      (fun _ run' => run'.beginnings = run.beginnings) run := by
  have hasked : (run.asked .stat).beginnings = run.beginnings := Run.beginnings_congr rfl
  refine wp_checkRotation (fun _ _ _ => hasked) (fun e _ _ => ?_) (fun _ _ _ => hasked)
    (fun _ _ _ _ => ?_) (fun _ _ _ _ _ _ => hasked) fun n _ _ _ _ => ?_
  · exact ((composes_steady take).recordFailure e _).mono (fun _ _ h => h.trans hasked)
      fun _ _ h => h.trans hasked
  · refine (wp_rotate_begins _).mono (fun _ _ h => ?_) fun _ _ h => h.trans hasked
    rw [h, hasked, if_pos rfl]
  · have hlook : Steady (readHead view) := (composes_steady take).readHead
    refine (hlook _).mono (fun found run₁ h₁ => ?_) fun _ _ h => h.trans hasked
    have hread : run₁.beginnings = run.beginnings := h₁.trans hasked
    refine ⟨fun e _ => ?_, fun head _ _ => ?_, fun head _ _ => ?_⟩
    · exact ((composes_steady take).recordFailure e _).mono (fun _ _ h => h.trans hread)
        fun _ _ h => h.trans hread
    · exact (Run.beginnings_congr rfl).trans hread
    · refine (wp_restart_begins _ _ _).mono (fun _ _ h => ?_) fun _ _ h => h.trans hread
      rw [h, hread, if_pos rfl]

end Work

/-! ## How often reading can begin again -/

/-- The window of the open file holds octets from behind the end that the file has by now. -/
def Follower.Stale (f : Follower) (view : View) : Prop :=
  ∃ h, f.handle = some h ∧ ¬ h.Fresh (view.data h.number).bytes

/-- The open file, which is at the path, will be begun again at most so many times if no call is
refused. -/
def Follower.Repeats (f : Follower) (h : Handle) (data : FileData) : (times : Nat) → Prop
  | 0 => f.Settled h data 0
  | 1 => h.Fresh data.bytes ∨ (f.stamp = data.stamp ∧ f.offset ≤ data.bytes.length)
  | _ + 2 => True

/-- Reading will begin again at most so many times if no call is refused. -/
inductive Run.Repeats (run : Run) (view : View) (times : Nat) : Prop
  | closed (handle : run.follower.handle = none)
  | other {h : Handle} (handle : run.follower.handle = some h)
      (other : view.number? ≠ some h.number) (pos : 0 < times)
  | same {h : Handle} (handle : run.follower.handle = some h) (path : view.number? = some h.number)
      (repeats : run.follower.Repeats h (view.data h.number) times)

/-- The open file was read to its end, and nothing is left in the window. -/
def Run.Spent (run : Run) (view : View) : Prop := ∀ h, run.follower.handle = some h →
  (view.data h.number).bytes.length ≤ h.position ∧ h.window = []

namespace Run

variable {view : View} {run run' run'' : Run} {h : Handle} {times : Nat}

theorem repeats_two (run : Run) (view : View) : run.Repeats view 2 := by
  cases hh : run.follower.handle with
  | none => exact .closed hh
  | some h =>
    by_cases hpath : view.number? = some h.number
    · exact .same hh hpath trivial
    · exact .other hh hpath Nat.two_pos

theorem repeats_one (hs : ¬ run.follower.Stale view) : run.Repeats view 1 := by
  cases hh : run.follower.handle with
  | none => exact .closed hh
  | some h =>
    by_cases hpath : view.number? = some h.number
    · exact .same hh hpath (.inl (by_contra fun hfresh => hs ⟨h, hh, hfresh⟩))
    · exact .other hh hpath Nat.one_pos

theorem Spent.not_stale (hs : run.Spent view) (view' : View) : ¬ run.follower.Stale view' := by
  rintro ⟨h, hh, hstale⟩
  exact hstale (.inl (hs h hh).2)

/-- Reading on uses up what was left in the window. -/
theorem Took.repeats (ht : run.Took view h run') (hn : h.Narrow)
    (hr : run.follower.Repeats h (view.data h.number) times) :
    run'.follower.Repeats (h.read (view.data h.number).bytes chunkSize).2
      (view.data h.number) times := by
  match times with
  | 0 =>
    have hsettled : run.follower.Settled h (view.data h.number) 0 := hr
    exact ht.settled hn hsettled
  | 1 => exact .inl (hn.fresh_read (by decide))
  | _ + 2 => trivial

/-- What is read on in whatever file is open leaves it to be begun again as often as before. -/
theorem Took.repeats_of_repeats (ht : run.Took view h run') (hn : h.Narrow)
    (hh : run.follower.handle = some h)
    (hr : run.Repeats view times) : run'.Repeats view times := by
  have hnumber := Handle.number_read h (view.data h.number).bytes chunkSize
  cases hr with
  | closed hnone =>
    rw [hnone] at hh
    cases hh
  | other hsome hother hpos =>
    obtain rfl := eq_of_handle hh hsome
    exact .other ht.handle (by rwa [hnumber]) hpos
  | same hsome hpath hrepeats =>
    obtain rfl := eq_of_handle hh hsome
    refine .same ht.handle (by rwa [hnumber]) ?_
    rw [hnumber]
    exact ht.repeats hn hrepeats

/-- A check after which the turn goes on leaves the file to be begun again as often as before. -/
theorem Checked.repeats (hc : run.Checked view h false run') (hq : ∀ kind, run.refusals.Spares kind)
    (hh : run.follower.handle = some h) (hr : run.Repeats view times) :
    run'.Repeats view times := by
  cases hr with
  | closed hnone =>
    rw [hnone] at hh
    cases hh
  | other hsome hother hpos =>
    obtain rfl := eq_of_handle hh hsome
    cases hc with
    | kept handle => exact .other handle hother hpos
    | refused hpath => exact absurd hpath hother
    | same hpath => exact absurd hpath hother
  | same hsome hpath hrepeats =>
    obtain rfl := eq_of_handle hh hsome
    cases hc with
    | kept handle offset identity stamp =>
      refine .same handle hpath ?_
      match times with
      | 0 =>
        unfold Follower.Repeats Follower.Settled at hrepeats ⊢
        rwa [stamp, offset]
      | 1 =>
        unfold Follower.Repeats at hrepeats ⊢
        rwa [stamp, offset]
      | _ + 2 => trivial
    | refused _ _ _ _ _ _ listed =>
      obtain ⟨kind, hlisted⟩ := listed
      exact absurd (hq kind) hlisted
    | same _ handle number _ _ changed offset_le stamp =>
      rw [← number] at hpath offset_le stamp
      refine .same handle hpath ?_
      match times with
      | 0 => exact absurd hrepeats.1 changed
      | 1 => exact .inr ⟨stamp, offset_le⟩
      | _ + 2 => trivial

/-- A check that ends the turn takes one of the times. -/
theorem Checked.repeats_less (hc : run.Checked view h true run') (hh : run.follower.handle = some h)
    (hr : run.Repeats view times) : ∃ fewer, times = fewer + 1 ∧ run'.Repeats view fewer := by
  cases hr with
  | closed hnone =>
    rw [hnone] at hh
    cases hh
  | other hsome hother hpos =>
    obtain rfl := eq_of_handle hh hsome
    cases hc with
    | restarted hpath => exact absurd hpath hother
    | rotated _ handle => exact ⟨times - 1, (Nat.sub_add_cancel hpos).symm, .closed handle⟩
  | same hsome hpath hrepeats =>
    obtain rfl := eq_of_handle hh hsome
    cases hc with
    | rotated hother => exact absurd hpath hother
    | restarted hpath₁ handle number narrow fresh identity changed offset stamp leaves =>
      rename_i h'
      have hnumber : (h'.seek 0).number = _ := (Handle.number_seek h' 0).trans number
      rw [← hnumber] at hpath stamp
      match times with
      | 0 =>
        obtain ⟨hstamp, -, hleft⟩ := hrepeats
        obtain hshort | hstamp' := changed
        · omega
        · exact absurd hstamp hstamp'
      | 1 =>
        -- the window is as the file is, or the file would not have to be begun again
        obtain hfresh | ⟨hstamp, hlong⟩ := hrepeats
        · refine ⟨0, rfl, .same handle hpath ⟨stamp, ?_, ?_⟩⟩
          · rw [hnumber]
            exact (fresh hfresh).seek 0
          · rw [offset, Nat.zero_add, hnumber]
            exact (fresh hfresh).left_seek_zero
        · obtain hshort | hstamp' := changed
          · omega
          · exact absurd hstamp hstamp'
      | 2 =>
        refine ⟨1, rfl, .same handle hpath (.inr ⟨stamp, ?_⟩)⟩
        rw [offset]
        exact Nat.zero_le _
      | fewer + 3 => exact ⟨fewer + 2, rfl, .same handle hpath trivial⟩

theorem Opened.repeats {run₁ : Run} (ho : run.Opened view run₁) (f : Follower)
    (hf : f = { run₁.follower with firstOpen := false }) : (run₁.put f).Repeats view 0 := by
  obtain ⟨h, hh, hpath, -, hfresh, hleft, hstamp⟩ := ho.handle
  subst hf
  exact .same hh hpath ⟨hstamp, hfresh, hleft⟩

end Run

namespace Work

variable {view : View} {take : Taker} {run : Run} {h : Handle} {times : Nat}

/-- Where reading on comes to a wait, the file was read to its end, unless reading was refused. -/
theorem wp_readOn_spent (hh : run.follower.handle = some h) (hq : run.refusals.Spares .readNext) :
    wp (readOn view take) (fun waits run' => waits → run'.Spent view) (fun _ _ => True) run := by
  unfold readOn
  rw [wp_bind]
  refine wp_readChunk hh (fun e he => absurd hq (Run.not_spares he)) fun _ => ?_
  split
  · next hnil =>
    obtain ⟨-, hend, hafter⟩ :=
      Handle.read_nothing (by decide) (by decide) (List.isEmpty_iff.1 hnil)
    rintro - h' hh'
    obtain rfl := Option.some.inj hh'
    rw [hafter]
    exact ⟨hend, rfl⟩
  · rw [wp_bind]
    exact wp_deliver (wp_deliverLines (fun _ _ _ _ _ => trivial) nofun)

/-- What a turn without refused calls does to the times that are left. -/
structure Uses (run : Run) (view : View) (times : Nat) (waits : Bool) (run' : Run) : Prop where
  sound : run'.follower.Sound
  spent : waits = true → run'.beginnings ≤ run.beginnings + times ∧ run'.Spent view
  left : waits = false → ∃ left, run'.Repeats view left ∧
    run'.beginnings + left ≤ run.beginnings + times

theorem Uses.of_le {run₁ run' : Run} {times₁ : Nat} {waits : Bool}
    (h : Uses run₁ view times₁ waits run')
    (hle : run₁.beginnings + times₁ ≤ run.beginnings + times) : Uses run view times waits run' where
  sound := h.sound
  spent hw := ⟨(h.spent hw).1.trans hle, (h.spent hw).2⟩
  left hw := by
    obtain ⟨left, hr, hl⟩ := h.left hw
    exact ⟨left, hr, hl.trans hle⟩

/-- Reading on uses none of the times. -/
theorem wp_readOn_uses (hh : run.follower.handle = some h) (hs : run.follower.Sound)
    (hq : run.refusals.Spares .readNext) (hr : run.Repeats view times) :
    wp (readOn view take) (Uses run view times)
      (fun _ run' => run'.beginnings = run.beginnings) run := by
  have hsteady : Steady (readOn view take) := (composes_steady take).readOn
  refine (((wp_readOn_took hh hs).and (wp_readOn_spent hh hq)).and (hsteady run)).mono
    (fun waits run' h' => ?_) fun _ _ h' => h'.2
  obtain ⟨⟨⟨hsound, htook⟩, hspent⟩, hbeginnings⟩ := h'
  refine ⟨hsound, fun hw => ⟨?_, hspent hw⟩, fun hw => ⟨times, ?_, ?_⟩⟩
  · rw [hbeginnings]
    exact Nat.le_add_right _ _
  · exact (htook hw).repeats_of_repeats (hs h hh).2 hh hr
  · rw [hbeginnings]

theorem wp_turn_uses (hs : run.follower.Sound) (hp : 10 ∉ run.follower.pending)
    (hq : ∀ kind, run.refusals.Spares kind) (hr : run.Repeats view times) :
    wp (turn view take) (Uses run view times)
      (fun _ run' => run'.beginnings ≤ run.beginnings + times) run := by
  refine wp_turn (fun hclosed => ?_) fun h hh => ?_
  · have hsteady :
        Steady (openFile view (run.follower.firstOpen && !run.follower.source.fromStart)) :=
      (composes_steady take).openFile _
    refine ((wp_openFile_opened _).and (hsteady run)).mono (fun opened run₁ h₁ => ?_)
      fun _ _ h₁ => ?_
    · obtain ⟨hopened, hbeginnings⟩ := h₁
      have htried : (run₁.put { run₁.follower with firstOpen := false }).beginnings =
          run.beginnings :=
        (Run.beginnings_congr rfl).trans hbeginnings
      cases opened with
      | false =>
        rw [if_neg Bool.false_ne_true] at hopened ⊢
        have hnone : (run₁.put { run₁.follower with firstOpen := false }).follower.handle = none :=
          hopened.trans hclosed
        refine ⟨fun h hh => ?_,
          fun _ => ⟨htried.le.trans (Nat.le_add_right _ _), fun h hh => ?_⟩, nofun⟩
        all_goals
          rw [hnone] at hh
          cases hh
      | true =>
        rw [if_pos rfl] at hopened ⊢
        obtain ⟨h, hh, hpath, hnarrow, -⟩ := hopened.handle
        have hh' : (run₁.put { run₁.follower with firstOpen := false }).follower.handle = some h :=
          hh
        have hsound := Follower.sound_of_handle hh' (hopened.identity.trans hpath) hnarrow
        have hspared : run₁.refusals.Spares .readNext := hopened.leaves.spares (hq .readNext)
        refine (wp_readOn_uses hh' hsound hspared (hopened.repeats _ rfl)).mono
          (fun waits run₂ h₂ => ?_) fun _ _ h₂ => ?_
        · exact h₂.of_le (htried.le.trans (Nat.le_add_right _ _))
        · exact (h₂.trans htried).le.trans (Nat.le_add_right _ _)
    · exact h₁.2.le.trans (Nat.le_add_right _ _)
  · have hlooked : wp (checkRotation view take) (run.Checked view h) (fun _ _ => True) run :=
      wp_checkRotation_checked hh hs hp
    have htame : Tame (checkRotation view take) run := tame_checkRotation take
    refine ((hlooked.and (wp_checkRotation_begins run)).and (htame hp)).mono
      (fun done run₁ h₁ => ?_) fun _ _ h₁ => h₁.1.2.le.trans (Nat.le_add_right _ _)
    obtain ⟨⟨hchecked, hbeginnings⟩, hworks⟩ := h₁
    have hsound := hchecked.sound hs hh
    cases done with
    | true =>
      obtain ⟨fewer, rfl, hfewer⟩ := hchecked.repeats_less hh hr
      rw [if_pos rfl] at hbeginnings ⊢
      refine ⟨hsound, nofun, fun _ => ⟨fewer, hfewer, ?_⟩⟩
      omega
    | false =>
      obtain ⟨h', hh'⟩ := hchecked.handle rfl
      rw [if_neg Bool.false_ne_true] at hbeginnings ⊢
      have hspared := hworks.leaves.spares (hq .readNext)
      refine (wp_readOn_uses hh' hsound hspared (hchecked.repeats hq hh hr)).mono
        (fun waits run₂ h₂ => ?_) fun _ _ h₂ => ?_
      · exact h₂.of_le (Nat.add_le_add_right hbeginnings.le _)
      · exact (h₂.trans hbeginnings).le.trans (Nat.le_add_right _ _)

end Work

/-! ## Bounds -/

namespace Work

variable {view : View} {take : Taker} {run : Run} {α β : Type}

/-- What follows work may be replaced by what comes to the same wherever the work leads. -/
theorem bind_congr_of_wp {w : Work β} {k k' : β → Work α}
    (h : wp w (fun b run' => k b run' = k' b run') (fun _ _ => True) run) :
    (w >>= k) run = (w >>= k') run := by
  show EStateM.bind w k run = EStateM.bind w k' run
  unfold wp at h
  unfold EStateM.bind
  cases hw : w run with
  | ok b run' =>
    rw [hw] at h
    exact h
  | error f run' => rfl

/-- A drain takes less chunks than octets may be left of the file. -/
theorem drainChunks_of_lt {fuel fuel' : Nat} (h : remaining view run.follower < fuel)
    (h' : remaining view run.follower < fuel') :
    drainChunks view take fuel run = drainChunks view take fuel' run := by
  induction fuel generalizing run fuel' with
  | zero => exact absurd h (Nat.not_lt_zero _)
  | succ fuel ih =>
    obtain ⟨fuel', rfl⟩ := Nat.exists_eq_add_one_of_ne_zero (Nat.ne_of_gt (Nat.zero_lt_of_lt h'))
    rw [drainChunks, drainChunks]
    refine bind_congr_of_wp ?_
    cases hh : run.follower.handle with
    | none =>
      unfold readChunk
      rw [wp_bind, wp_follower, hh]
      rfl
    | some handle =>
      rw [remaining_eq_left hh] at h h'
      refine wp_readChunk hh (fun e _ => wp_recordFailure (fun _ => trivial) fun _ => rfl)
        fun _ => ?_
      split
      · next hsome =>
        have hread := Handle.left_read handle (view.data handle.number).bytes chunkSize
        have hchunk : 0 < (handle.read (view.data handle.number).bytes chunkSize).1.length :=
          List.length_pos_iff.2 (by simpa using hsome)
        have hless (f : Follower)
            (hf : f.handle = some (handle.read (view.data handle.number).bytes chunkSize).2) :
            remaining view f < handle.left (view.data handle.number).bytes := by
          rw [remaining_eq_left hf, Handle.number_read]
          omega
        refine bind_congr_of_wp (wp_deliver (wp_deliverLines (fun _ _ _ _ _ => trivial) (ih ?_ ?_)))
        · exact (hless _ rfl).trans_le (Nat.lt_succ_iff.1 h)
        · exact (hless _ rfl).trans_le (Nat.lt_succ_iff.1 h')
      · rfl

end Work

namespace Follower

variable {view : View} {take : Taker} {run : Run} {times : Nat}

/-- A poll that has come to its end takes no more turns. -/
theorem turns_of_le {fuel fuel' : Nat} (hle : fuel ≤ fuel')
    (h : (turns view take fuel run).ending ≠ .unfinished) :
    turns view take fuel' run = turns view take fuel run := by
  induction fuel generalizing run fuel' with
  | zero => exact absurd rfl h
  | succ fuel ih =>
    obtain ⟨more, rfl⟩ :=
      Nat.exists_eq_add_one_of_ne_zero (Nat.ne_of_gt (Nat.lt_of_lt_of_le fuel.succ_pos hle))
    rw [turns] at h ⊢
    rw [turns]
    cases ht : Work.turn view take run with
    | error f run' => rfl
    | ok waits run' =>
      cases waits with
      | true => rfl
      | false =>
        rw [ht] at h
        exact ih (Nat.le_of_succ_le_succ hle) h

theorem poll_ends_anyhow (hs : run.follower.Sound) (hp : 10 ∉ run.follower.pending) :
    (poll view take run).Ends (fun _ => True) fun _ _ => True := by
  have hturn (run : Run) (_ : True) : Work.wp (Work.turn view take)
      (fun waits run' => if waits then True else True) (fun _ _ => True) run := by
    unfold Work.wp
    split <;> simp
  exact (poll_ends hturn trivial hs hp).mono (fun _ _ => trivial) fun _ _ _ => trivial

/-- The bound on the turns of a poll cuts nothing off. -/
theorem turns_eq_poll (hs : run.follower.Sound) (hp : 10 ∉ run.follower.pending) {fuel : Nat}
    (hle : turnBound view run ≤ fuel) : turns view take fuel run = poll view take run := by
  refine turns_of_le hle fun hunfinished => ?_
  have hends : (poll view take run).Ends (fun _ => True) fun _ _ => True := poll_ends_anyhow hs hp
  cases hends with
  | waits h => exact nomatch h.symm.trans hunfinished
  | fails h => exact nomatch h.symm.trans hunfinished

/-- What every turn of a poll without refused calls keeps. -/
structure Underway (run : Run) (view : View) (times : Nat) (run' : Run) : Prop where
  sound : run'.follower.Sound
  works : run.Works run'
  left : ∃ left, run'.Repeats view left ∧ run'.beginnings + left ≤ run.beginnings + times

/-- Without refused calls a poll uses up no more than the times that are left, and waits at the end
of the file. -/
theorem poll_spent (hs : run.follower.Sound) (hp : 10 ∉ run.follower.pending)
    (hq : ∀ kind, run.refusals.Spares kind) (hr : run.Repeats view times) :
    (poll view take run).Ends
      (fun run' => run'.beginnings ≤ run.beginnings + times ∧ run'.Spent view)
      fun _ run' => run'.beginnings ≤ run.beginnings + times := by
  have hbegin : Underway run view times run := ⟨hs, .refl hp, times, hr, le_rfl⟩
  refine (poll_ends (I := Underway run view times) (fun run₁ h₁ => ?_) hbegin hs hp).mono
    (fun _ h => h.1) fun _ _ h => h
  obtain ⟨hsound, hworks, left, hleft, hle⟩ := h₁
  have hspares (kind : CallKind) : run₁.refusals.Spares kind := hworks.leaves.spares (hq kind)
  have htame : Work.Tame (Work.turn view take) run₁ := Work.tame_turn take
  refine ((Work.wp_turn_uses hsound hworks.pending hspares hleft).and (htame hworks.pending)).mono
    (fun waits run₂ h => ?_) fun _ _ h => h.1.trans hle
  have huses := h.1.of_le hle
  cases waits with
  | true => exact huses.spent rfl
  | false => exact ⟨huses.sound, hworks.trans h.2, huses.left rfl⟩

/-- How often reading may be begun again in a poll in which no call is refused. -/
structure Advances (view : View) (before after : Run) : Prop where
  twice : after.beginnings ≤ before.beginnings + 2
  once : ¬ before.follower.Stale view → after.beginnings ≤ before.beginnings + 1

theorem advances_of_stale {before after : Run} (hs : before.follower.Stale view)
    (h : after.beginnings ≤ before.beginnings + 2) : Advances view before after :=
  ⟨h, fun hn => absurd hs hn⟩

theorem advances_of_not_stale {before after : Run} (h : after.beginnings ≤ before.beginnings + 1) :
    Advances view before after := ⟨h.trans (Nat.le_succ _), fun _ => h⟩

/-- A poll comes to its end by itself, and what it leaves behind if no call of it is refused. -/
structure Concludes (run : Run) (o : Occasion) : Prop where
  ends : (meet run o).Ends (fun _ => True) fun _ _ => True
  /-- No more turns are taken than there may be. -/
  turns_eq : ∀ fuel, turnBound o.view { run with refusals := o.refusals } ≤ fuel →
    turns o.view o.take fuel { run with refusals := o.refusals } = meet run o
  /-- No more chunks are taken, in whichever state a file is drained. -/
  chunks_eq : ∀ run' fuel, Work.remaining o.view run'.follower < fuel →
    Work.drainChunks o.view o.take fuel run' =
      Work.drainChunks o.view o.take (Work.remaining o.view run'.follower + 1) run'
  spared : (∀ kind, o.refusals.Spares kind) → (meet run o).Ends
    (fun run' => Advances o.view run run' ∧
      (∀ h, run'.follower.handle = some h → (o.view.data h.number).bytes.length ≤ h.position) ∧
      ∀ view, ¬ run'.follower.Stale view)
    fun _ run' => Advances o.view run run'

/-- Every poll of a follower waits or fails, and no bound cuts it off.  Without refused calls it
begins reading again at most once, or twice if the window was stale before, and waits at the end of
the open file if there is one.  After such a poll no window is stale, whatever becomes of the
file. -/
theorem poll_reaches_wait {source : Source} {limit : Int}
    (h : Reached source limit run) (o : Occasion) : Concludes run o := by
  have hsound : ({ run with refusals := o.refusals } : Run).follower.Sound := h.upright.sound
  have hpending : 10 ∉ ({ run with refusals := o.refusals } : Run).follower.pending :=
    h.upright.pending
  refine ⟨poll_ends_anyhow hsound hpending, fun fuel hle => turns_eq_poll hsound hpending hle,
    fun run' fuel hlt => Work.drainChunks_of_lt hlt (Nat.lt_succ_self _), fun hq => ?_⟩
  by_cases hstale : run.follower.Stale o.view
  · have htwo : Run.Repeats { run with refusals := o.refusals } o.view 2 := Run.repeats_two _ _
    refine (poll_spent hsound hpending hq htwo).mono (fun run' h' => ?_)
      fun _ _ h' => advances_of_stale hstale h'
    exact ⟨advances_of_stale hstale h'.1, fun h hh => (h'.2 h hh).1, h'.2.not_stale⟩
  · have hone : Run.Repeats { run with refusals := o.refusals } o.view 1 := Run.repeats_one hstale
    refine (poll_spent hsound hpending hq hone).mono (fun run' h' => ?_)
      fun _ _ h' => advances_of_not_stale h'
    exact ⟨advances_of_not_stale h'.1, fun h hh => (h'.2 h hh).1, h'.2.not_stale⟩

/-- A follower that has read a log with an unfinished line. -/
def unfinishedRun : Run := (follow (start ⟨"app", ⟨.none, ["app.log"]⟩, true, false, .web⟩ 3)
  [⟨⟨.file 1, fun _ => ⟨[97, 10, 98], 1, 0⟩⟩, .none, fun _ => none⟩]).run

/-- The line is finished, and another file is at the path. -/
def successor : Occasion :=
  ⟨⟨.file 2, fun n => if n = 1 then ⟨[97, 10, 98, 99, 10], 2, 0⟩ else ⟨[100, 10], 3, 0⟩⟩,
    .none, fun _ => none⟩

theorem poll_successor :
    Reached ⟨"app", ⟨.none, ["app.log"]⟩, true, false, .web⟩ 3 unfinishedRun ∧
    Concludes unfinishedRun successor ∧
    (meet unfinishedRun successor).Ends
      (fun run => run.beginnings = unfinishedRun.beginnings + 1 ∧ run.lines = ["a", "bc", "d"])
      (fun _ _ => False) := by
  have hreached : Reached ⟨"app", ⟨.none, ["app.log"]⟩, true, false, .web⟩ 3 unfinishedRun :=
    Reached.follow .start rfl
  exact ⟨hreached, poll_reaches_wait hreached successor, by decide +kernel⟩

/-- A log with a long line, to which a second line is added that may not be read at once. -/
def longLog : List Occasion := [
  ⟨⟨.file 7, fun _ => ⟨List.replicate 299 97 ++ [10], 1, 0⟩⟩, .none, fun _ => none⟩,
  ⟨⟨.file 7, fun _ => ⟨List.replicate 299 97 ++ [10, 98, 10], 2, 0⟩⟩,
    Refusals.none.set .readNext ⟨0, 1, .inputOutput⟩, fun _ => none⟩]

/-- A follower that has looked at how the log begins after it was added to. -/
def staleRun : Run :=
  (follow (start ⟨"app", ⟨.none, ["app.log"]⟩, true, false, .web⟩ 10) longLog).run

/-- The log is written anew. -/
def rewriting : Occasion := ⟨⟨.file 7, fun _ => ⟨[99, 10], 3, 0⟩⟩, .none, fun _ => none⟩

/-- No call is refused, and the log is begun twice: first as it was before, from the window. -/
theorem poll_rewriting :
    Reached ⟨"app", ⟨.none, ["app.log"]⟩, true, false, .web⟩ 10 staleRun ∧
    (∀ kind, rewriting.refusals.Spares kind) ∧
    (meet staleRun rewriting).Ends
      (fun run => run.reopens .truncated = staleRun.reopens .truncated + 2 ∧
        run.lines = staleRun.lines ++ staleRun.lines ++ (["b", "c"] : List Text))
      (fun _ _ => False) := by
  have hwaits : (follow (start ⟨"app", ⟨.none, ["app.log"]⟩, true, false, .web⟩ 10) longLog).Ends
      (fun _ => True) (fun _ _ => False) := by decide +kernel
  have hreached : Reached ⟨"app", ⟨.none, ["app.log"]⟩, true, false, .web⟩ 10 staleRun := by
    cases hwaits with
    | waits h _ => exact Reached.follow .start h
    | fails _ h => exact h.elim
  exact ⟨hreached, fun _ => Refusals.spares_none _, by decide +kernel⟩

end Follower

end LogRelay
