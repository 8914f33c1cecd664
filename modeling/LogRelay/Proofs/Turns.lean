import LogRelay.Proofs.Handle
import LogRelay.Proofs.Running

/-!
# A poll comes to an end

A turn that does not end in a wait reads on, leaves the file for another one, or goes back to its
start.  How many such turns are left is bounded by `Run.Lasts`: each takes something of what the
handle can still give, or lessens how often the file can be begun again.  That happens after a
refused look at how the file begins, of which a schedule lists finitely many, and twice besides:
once for a stamp that has changed, and once because a stale window gave octets beyond the end of the
file.  So a poll waits or fails (`poll_ends`).
-/

namespace LogRelay

namespace Refusals

variable {rs rs' : Refusals}

theorem Leaves.looks_le (h : rs.Leaves rs') : rs'.looks ≤ rs.looks :=
  Nat.add_le_add (h .seek).length_le (h .readHead).length_le

/-- A refused call of a look is one that is listed. -/
theorem looks_ask_lt {kind : CallKind} (hk : kind = .seek ∨ kind = .readHead)
    (h : (rs.ask kind).1 ≠ Option.none) : (rs.ask kind).2.looks < rs.looks := by
  unfold ask at h ⊢
  split
  · next hn => simp [hn] at h
  · next outcome rest hn =>
    rcases hk with rfl | rfl <;> simp [looks, schedule, hn]

end Refusals

theorem Run.looks_asked_lt {run : Run} {kind : CallKind} {e : IoError}
    (hk : kind = .seek ∨ kind = .readHead)
    (he : run.refusal? kind = some e) : (run.asked kind).refusals.looks < run.refusals.looks := by
  refine Refusals.looks_ask_lt hk fun hnone => ?_
  rw [Run.refusal?, hnone] at he
  cases he

theorem Run.not_spares {run : Run} {kind : CallKind} {e : IoError}
    (he : run.refusal? kind = some e) : ¬ run.refusals.Spares kind := by
  intro hs
  rw [Run.refusal?_of_spares hs] at he
  cases he

/-- An open handle is one of the file that was opened last, and has a window of one block. -/
def Follower.Sound (f : Follower) : Prop :=
  ∀ h, f.handle = some h → f.identity = some h.number ∧ h.Narrow

theorem Follower.sound_of_handle {f : Follower} {h : Handle} (hh : f.handle = some h)
    (hi : f.identity = some h.number) (hn : h.Narrow) : f.Sound := by
  intro h' hh'
  rw [hh] at hh'
  obtain rfl := Option.some.inj hh'
  exact ⟨hi, hn⟩

/-! ## What a turn does to the open file -/

namespace Run

/-- A chunk that is not empty was read from the handle and taken over. -/
structure Took (run : Run) (view : View) (h : Handle) (run' : Run) : Prop where
  handle : run'.follower.handle = some (h.read (view.data h.number).bytes chunkSize).2
  chunk : (h.read (view.data h.number).bytes chunkSize).1 ≠ []
  offset : run'.follower.offset =
    run.follower.offset + (h.read (view.data h.number).bytes chunkSize).1.length
  identity : run'.follower.identity = run.follower.identity
  stamp : run'.follower.stamp = run.follower.stamp
  leaves : run.refusals.Leaves run'.refusals

/-- What a check of the open file comes to; the turn is over if the file is left or begun again. -/
inductive Checked (run : Run) (view : View) (h : Handle) : Bool → Run → Prop
  /-- Nothing was seen to have changed. -/
  | kept {run' : Run} (handle : run'.follower.handle = some h)
      (offset : run'.follower.offset = run.follower.offset)
      (identity : run'.follower.identity = run.follower.identity)
      (stamp : run'.follower.stamp = run.follower.stamp)
      (leaves : run.refusals.Leaves run'.refusals) :
      run.Checked view h false run'
  /-- The look at how the file begins was refused. -/
  | refused {run' : Run} {h' : Handle} (path : view.number? = some h.number)
      (handle : run'.follower.handle = some h')
      (number : h'.number = h.number) (narrow : h'.Narrow)
      (identity : run'.follower.identity = run.follower.identity)
      (looks : run'.refusals.looks < run.refusals.looks)
      (listed : ∃ kind, ¬ run.refusals.Spares kind) : run.Checked view h false run'
  /-- The file has changed and begins as before. -/
  | same {run' : Run} {h' : Handle} (path : view.number? = some h.number)
      (handle : run'.follower.handle = some h')
      (number : h'.number = h.number) (narrow : h'.Narrow)
      (identity : run'.follower.identity = run.follower.identity)
      (changed : run.follower.stamp ≠ (view.data h.number).stamp)
      (offset_le : run'.follower.offset ≤ (view.data h.number).bytes.length)
      (stamp : run'.follower.stamp = (view.data h.number).stamp)
      (leaves : run.refusals.Leaves run'.refusals) : run.Checked view h false run'
  /-- The file is begun again. -/
  | restarted {run' : Run} {h' : Handle} (path : view.number? = some h.number)
      (handle : run'.follower.handle = some (h'.seek 0))
      (number : h'.number = h.number) (narrow : h'.Narrow)
      (fresh : h.Fresh (view.data h.number).bytes → h'.Fresh (view.data h.number).bytes)
      (identity : run'.follower.identity = run.follower.identity)
      (changed : (view.data h.number).bytes.length < run.follower.offset ∨
        run.follower.stamp ≠ (view.data h.number).stamp)
      (offset : run'.follower.offset = 0) (stamp : run'.follower.stamp = (view.data h.number).stamp)
      (leaves : run.refusals.Leaves run'.refusals) : run.Checked view h true run'
  /-- Another file is at the path, and the old one is left. -/
  | rotated {run' : Run} (other : view.number? ≠ some h.number)
      (handle : run'.follower.handle = none) (leaves : run.refusals.Leaves run'.refusals) :
      run.Checked view h true run'

/-- A file was opened, and stands where reading begins. -/
structure Opened (run : Run) (view : View) (run' : Run) : Prop where
  handle : ∃ h, run'.follower.handle = some h ∧ view.number? = some h.number ∧ h.Narrow ∧
    h.Fresh (view.data h.number).bytes ∧
    run'.follower.offset + h.left (view.data h.number).bytes ≤ (view.data h.number).bytes.length ∧
    run'.follower.stamp = (view.data h.number).stamp
  identity : run'.follower.identity = view.number?
  leaves : run.refusals.Leaves run'.refusals

end Run

namespace Work

variable {view : View} {take : Taker} {run : Run} {h : Handle}

/-- Reading on leaves the handle sound, and takes something over unless the poll is to wait. -/
theorem wp_readOn_took (hh : run.follower.handle = some h) (hs : run.follower.Sound) :
    wp (readOn view take)
      (fun waits run' => run'.follower.Sound ∧ (waits = false → run.Took view h run'))
      (fun _ _ => True) run := by
  obtain ⟨hid, hnarrow⟩ := hs h hh
  unfold readOn
  rw [wp_bind]
  refine wp_readChunk hh (fun e _ => ?_) fun _ => ?_
  · exact wp_recordFailure (fun _ => trivial)
      fun _ => ⟨Follower.sound_of_handle hh hid hnarrow, nofun⟩
  · have hid' :
        run.follower.identity = some (h.read (view.data h.number).bytes chunkSize).2.number := by
      rw [Handle.number_read, hid]
    split
    · exact ⟨Follower.sound_of_handle rfl hid' (hnarrow.read _ _), nofun⟩
    · next hne =>
      rw [wp_bind]
      refine wp_deliver (wp_deliverLines (fun _ _ _ _ _ => trivial) ?_)
      refine ⟨Follower.sound_of_handle rfl hid' (hnarrow.read _ _), fun _ => ?_⟩
      exact ⟨rfl, by simpa using hne, rfl, rfl, rfl, Refusals.leaves_ask _ _⟩

theorem wp_readHead_looked (hh : run.follower.handle = some h) (hn : h.Narrow) :
    wp (readHead view)
      (fun found run' => (∃ h', run'.follower = { run.follower with handle := some h' } ∧
          h'.number = h.number ∧ h'.Narrow ∧
          (h.Fresh (view.data h.number).bytes → h'.Fresh (view.data h.number).bytes)) ∧
        run.refusals.Leaves run'.refusals ∧
        ((∃ e, found = .error e) →
          run'.refusals.looks < run.refusals.looks ∧ ∃ kind, ¬ run.refusals.Spares kind))
      (fun _ _ => False) run := by
  have hseek := hn.seek 0
  have hread : ((h.seek 0).read (view.data h.number).bytes headSize).2.Narrow := hseek.read _ _
  have hnumber : ((h.seek 0).read (view.data h.number).bytes headSize).2.number = h.number := by
    rw [Handle.number_read, Handle.number_seek]
  have hfresh (hf : h.Fresh (view.data h.number).bytes) :
      ((h.seek 0).read (view.data h.number).bytes headSize).2.Fresh (view.data h.number).bytes :=
    (hf.seek 0).read _
  have hleaves₁ := Refusals.leaves_ask run.refusals .seek
  have hleaves₂ := hleaves₁.trans (Refusals.leaves_ask _ .readHead)
  have hleaves₃ := hleaves₂.trans (Refusals.leaves_ask _ .seek)
  refine wp_readHead hh (fun e he => ?_) (fun _ e he => ?_) (fun _ _ e he => ?_) fun _ _ _ => ?_
  · refine ⟨⟨h, ?_, rfl, hn, id⟩, hleaves₁,
      fun _ => ⟨Run.looks_asked_lt (.inl rfl) he, _, Run.not_spares he⟩⟩
    rw [← hh]
    rfl
  · refine ⟨⟨_, rfl, Handle.number_seek _ _, hseek, fun hf => hf.seek 0⟩, hleaves₂,
      fun _ => ⟨?_, .readHead, ?_⟩⟩
    · exact lt_of_lt_of_le (Run.looks_asked_lt (.inr rfl) he) hleaves₁.looks_le
    · exact fun hs => Run.not_spares he (hleaves₁.spares hs)
  · refine ⟨⟨_, rfl, hnumber, hread, hfresh⟩, hleaves₃, fun _ => ⟨?_, .seek, ?_⟩⟩
    · exact lt_of_lt_of_le (Run.looks_asked_lt (.inl rfl) he) hleaves₂.looks_le
    · exact fun hs => Run.not_spares he (hleaves₂.spares hs)
  · refine ⟨⟨_, rfl, ?_, hread.seek _, fun hf => (hfresh hf).seek _⟩, hleaves₃, nofun⟩
    rw [Handle.number_seek, hnumber]

theorem wp_rotate_closed (hp : 10 ∉ run.follower.pending) :
    wp (rotate view take)
      (fun _ run' => run'.follower.handle = none ∧ run.refusals.Leaves run'.refusals)
      (fun _ _ => True) run := by
  have hclosed :
      wp (rotate view take) (fun _ run' => run'.follower.handle = none) (fun _ _ => True) run := by
    unfold rotate
    rw [wp_bind, wp_emit, wp_bind]
    have hp' : 10 ∉ (run.log (.noticed .rotated)).follower.pending := hp
    refine (tame_drain take hp').mono (fun _ run' _ => ?_) fun _ _ _ => trivial
    rw [wp_bind]
    refine wp_close_any.mono (fun _ run'' h => ?_) fun _ _ h => h.elim
    show run''.follower.handle = none
    rw [h.1]
  exact (hclosed.and (tame_rotate take hp)).mono (fun _ _ h => ⟨h.1, h.2.leaves⟩)
    fun _ _ _ => trivial

theorem wp_checkRotation_checked (hh : run.follower.handle = some h) (hs : run.follower.Sound)
    (hp : 10 ∉ run.follower.pending) :
    wp (checkRotation view take) (run.Checked view h) (fun _ _ => True) run := by
  obtain ⟨hid, hnarrow⟩ := hs h hh
  have hleaves := Refusals.leaves_ask run.refusals .stat
  have hnumber {n : Nat} (hn : run.follower.identity = some n) : n = h.number :=
    Option.some.inj (hn.symm.trans hid)
  refine wp_checkRotation (fun _ _ _ => ?_) (fun e _ _ => ?_) (fun _ _ _ => trivial)
    (fun n hpath _ hother => ?_) (fun n _ _ _ _ _ => ?_) fun n hpath _ hn hchanged => ?_
  · exact .kept hh rfl rfl rfl hleaves
  · exact wp_recordFailure (fun _ => trivial) fun _ => .kept hh rfl rfl rfl hleaves
  · have hother' : view.number? ≠ some h.number :=
      fun hn => hother (hid.trans (hn.symm.trans hpath))
    have hp' : 10 ∉ (run.asked .stat).follower.pending := hp
    exact (wp_rotate_closed hp').mono (fun _ _ h => .rotated hother' h.1 (hleaves.trans h.2))
      fun _ _ _ => trivial
  · exact .kept hh rfl rfl rfl hleaves
  · obtain rfl := hnumber hn
    have hh' : (run.asked .stat).follower.handle = some h := hh
    refine (wp_readHead_looked hh' hnarrow).mono (fun found run₁ hlooked => ?_) fun _ _ h => h.elim
    obtain ⟨⟨h', hf, hnum, hnar, hfresh⟩, hleaves₁, hless⟩ := hlooked
    have hh₁ : run₁.follower.handle = some h' := by rw [hf]
    have hid' : run₁.follower.identity = run.follower.identity := by rw [hf, Run.follower_asked]
    refine ⟨fun e he => ?_, fun head hok hsame => ?_, fun head hok hcut => ?_⟩
    · obtain ⟨hfewer, kind, hlisted⟩ := hless ⟨e, he⟩
      refine wp_recordFailure (fun _ => trivial)
        fun _ => .refused hpath hh₁ hnum hnar hid' ?_ ⟨kind, fun hs => ?_⟩
      · exact lt_of_lt_of_le hfewer hleaves.looks_le
      · exact hlisted (hleaves.spares hs)
    · refine .same hpath hh₁ hnum hnar hid'
        (fun hstamp => hchanged ⟨hsame.1, hstamp.symm⟩) ?_ rfl ?_
      · show run₁.follower.offset ≤ _
        rw [hf]
        exact hsame.1
      · exact hleaves.trans hleaves₁
    · have hback : run₁.follower.handle.map (·.seek 0) = some (h'.seek 0) := by
        rw [hh₁]
        rfl
      refine wp_restart (fun _ _ => trivial) fun _ => ?_
      refine .restarted hpath hback hnum hnar hfresh hid' ?_ rfl rfl ?_
      · by_cases hsize : run.follower.offset ≤ (view.data h.number).bytes.length
        · exact .inr fun hstamp => hchanged ⟨hsize, hstamp.symm⟩
        · exact .inl (by omega)
      · exact (hleaves.trans hleaves₁).trans (Refusals.leaves_ask _ _)

/-- A handle that stands where reading begins gives no more than lies behind that in the file. -/
theorem standing_sound (data : FileData) (n : Nat) (toEnd : Bool) :
    (standing data n toEnd).number = n ∧ (standing data n toEnd).Narrow ∧
      (standing data n toEnd).Fresh data.bytes ∧
      (standing data n toEnd).position + (standing data n toEnd).left data.bytes ≤
        data.bytes.length := by
  have hread : ((Handle.opened n).read data.bytes headSize).2.number = n := by
    rw [Handle.number_read, Handle.number_opened]
  have hnarrow := (Handle.narrow_opened n).read data.bytes headSize
  have hfresh := (Handle.fresh_opened n data.bytes).read headSize
  have hstart := (Handle.at_opened n data.bytes).read_snd headSize
  unfold standing
  generalize ((Handle.opened n).read data.bytes headSize).2 = h at hread hnarrow hfresh hstart
  cases toEnd with
  | true =>
    rw [if_pos rfl]
    refine ⟨hread, Nat.zero_le _, .inl rfl, ?_⟩
    simp [Handle.seekEnd, Handle.position, Handle.left, Handle.ahead]
  | false =>
    rw [if_neg Bool.false_ne_true]
    have hleft := hfresh.left_seek_zero
    refine ⟨(Handle.number_seek h 0).trans hread, hnarrow.seek 0, hfresh.seek 0, ?_⟩
    rw [(hstart.seek 0).position_eq]
    omega

theorem wp_openFile_opened (toEnd : Bool) :
    wp (openFile view toEnd)
      (fun opened run' => if opened then run.Opened view run' else run'.follower.handle =
        run.follower.handle)
      (fun _ _ => True) run := by
  refine wp_openFile (fun _ _ _ => ?_) (fun e _ _ => ?_) (fun _ _ _ => trivial) fun n hn _ => ?_
  · exact rfl
  · exact wp_recordFailure (fun _ => trivial) fun _ => rfl
  · have habandon (e : IoError) {run' : Run} (hh : run'.follower.handle = run.follower.handle) :
        wp (abandon e)
          (fun opened run' =>
            if opened then run.Opened view run' else run'.follower.handle = run.follower.handle)
          (fun _ _ => True) run' :=
      wp_abandon (fun _ _ => trivial) fun _ => wp_recordFailure (fun _ => trivial) fun _ => hh
    refine wp_prepare (fun e _ => habandon e rfl) (fun _ e _ => habandon e rfl) fun _ _ => ?_
    have hnumber := View.number?_of_file hn
    have hleaves := ((Refusals.leaves_ask run.refusals .openFile).trans
      (Refusals.leaves_ask _ .readHead)).trans (Refusals.leaves_ask _ .seek)
    obtain ⟨hnum, hnarrow, hfresh, hleft⟩ := standing_sound (view.data n) n toEnd
    refine ⟨⟨_, rfl, ?_⟩, hnumber.symm, hleaves⟩
    rw [hnum]
    exact ⟨hnumber, hnarrow, hfresh, hleft, rfl⟩

end Work

/-! ## How many turns are left -/

/-- How far reading of the file at the path has come.  At stage 0 it will not be begun again unless
a look at how it begins is refused, at stage 1 at most once and at stage 2 at most twice. -/
def Follower.Settled (f : Follower) (h : Handle) (data : FileData) : (stage : Nat) → Prop
  | 0 => f.stamp = data.stamp ∧ h.Fresh data.bytes ∧
      f.offset + h.left data.bytes ≤ data.bytes.length
  | 1 => f.stamp = data.stamp ∧ (h.Fresh data.bytes ∨ f.offset ≤ data.bytes.length)
  | _ => True

/-- How many octets a handle can have left of the file at the path. -/
def View.most (view : View) : Nat := Handle.blockSize + view.there.length

theorem View.there_eq {view : View} {n : Nat} (hn : view.number? = some n) :
    view.there = (view.data n).bytes := by
  rw [View.there, hn]

/-- At most so many turns are left that do not end in a wait. -/
inductive Run.Lasts (run : Run) (view : View) (bound : Nat) : Prop
  | closed (handle : run.follower.handle = none)
      (le : 3 * run.refusals.looks * (view.most + 1) + view.most + 1 ≤ bound)
  | other {h : Handle} (handle : run.follower.handle = some h)
      (other : view.number? ≠ some h.number)
      (le : 3 * run.refusals.looks * (view.most + 1) + view.most + 2 +
        h.left (view.data h.number).bytes ≤ bound)
  | same {h : Handle} {stage : Nat} (handle : run.follower.handle = some h)
      (path : view.number? = some h.number) (stage_le : stage ≤ 2)
      (settled : run.follower.Settled h (view.data h.number) stage)
      (le : (3 * run.refusals.looks + stage) * (view.most + 1) + h.left (view.data h.number).bytes ≤
        bound)

namespace Run

variable {view : View} {run run' : Run} {h : Handle} {bound : Nat} {done : Bool}

theorem left_le_most (hn : view.number? = some h.number) (hnarrow : h.Narrow) :
    h.left (view.data h.number).bytes ≤ view.most := by
  rw [View.most, View.there_eq hn]
  exact Handle.left_le hnarrow

/-- Fewer beginnings are worth more than all that can be left of the file. -/
theorem mul_add_lt {a b c most left : Nat} (hab : a < b) (hl : left ≤ most) :
    a * (most + 1) + left < b * (most + 1) + c := by
  have hmul := Nat.mul_le_mul_right (most + 1) (Nat.succ_le_of_lt hab)
  rw [Nat.succ_mul] at hmul
  omega

theorem Took.left_lt (ht : run.Took view h run') :
    (h.read (view.data h.number).bytes chunkSize).2.left (view.data h.number).bytes <
      h.left (view.data h.number).bytes := by
  have hleft := Handle.left_read h (view.data h.number).bytes chunkSize
  have hchunk := List.length_pos_iff.2 ht.chunk
  omega

theorem Took.settled (ht : run.Took view h run') (hn : h.Narrow) {stage : Nat}
    (hs : run.follower.Settled h (view.data h.number) stage) :
    run'.follower.Settled (h.read (view.data h.number).bytes chunkSize).2
      (view.data h.number) stage := by
  match stage with
  | 0 =>
    obtain ⟨hstamp, hfresh, hleft⟩ := hs
    have hread := Handle.left_read h (view.data h.number).bytes chunkSize
    refine ⟨ht.stamp.trans hstamp, hfresh.read _, ?_⟩
    rw [ht.offset]
    omega
  | 1 => exact ⟨ht.stamp.trans hs.1, .inl (hn.fresh_read (by decide))⟩
  | _ + 2 => trivial

/-- A turn that reads on takes something of what is left. -/
theorem Took.lasts (ht : run.Took view h run')
    (hpath : view.number? = some h.number) (hn : h.Narrow)
    {stage : Nat} (hle : stage ≤ 2) (hs : run.follower.Settled h (view.data h.number) stage)
    (hb : (3 * run.refusals.looks + stage) * (view.most + 1) + h.left (view.data h.number).bytes ≤
      bound) :
    ∃ m < bound, run'.Lasts view m := by
  have hless := ht.left_lt
  have hlooks : 3 * run'.refusals.looks + stage ≤ 3 * run.refusals.looks + stage := by
    have := ht.leaves.looks_le
    omega
  have hmul := Nat.mul_le_mul_right (view.most + 1) hlooks
  have hnumber := Handle.number_read h (view.data h.number).bytes chunkSize
  refine ⟨_, ?_, .same ht.handle (by rw [hnumber, hpath]) hle ?_ le_rfl⟩
  · rw [hnumber]
    omega
  · rw [hnumber]
    exact ht.settled hn hs

theorem Took.lasts_other (ht : run.Took view h run') (hpath : view.number? ≠ some h.number)
    (hb : 3 * run.refusals.looks * (view.most + 1) + view.most + 2 +
      h.left (view.data h.number).bytes ≤ bound) : ∃ m < bound, run'.Lasts view m := by
  have hless := ht.left_lt
  have hmul := Nat.mul_le_mul_right (view.most + 1) (Nat.mul_le_mul_left 3 ht.leaves.looks_le)
  have hnumber := Handle.number_read h (view.data h.number).bytes chunkSize
  refine ⟨_, ?_, .other ht.handle (by rwa [hnumber]) le_rfl⟩
  rw [hnumber]
  omega

/-- A file just opened is read once. -/
theorem Opened.lasts {run₁ : Run} (ho : run.Opened view run₁) (hh : run₁.follower.handle = some h)
    (ht : Took (run₁.put { run₁.follower with firstOpen := false }) view h run')
    (hb : 3 * run.refusals.looks * (view.most + 1) + view.most + 1 ≤ bound) :
    ∃ m < bound, run'.Lasts view m := by
  obtain ⟨h', hh', hpath, hnarrow, hfresh, hleft, hstamp⟩ := ho.handle
  obtain rfl : h' = h := Option.some.inj (hh'.symm.trans hh)
  have hmost := left_le_most hpath hnarrow
  have hmul := Nat.mul_le_mul_right (view.most + 1) (Nat.mul_le_mul_left 3 ho.leaves.looks_le)
  refine ht.lasts hpath hnarrow (Nat.zero_le 2) ⟨hstamp, hfresh, hleft⟩ ?_
  show (3 * run₁.refusals.looks + 0) * (view.most + 1) + _ ≤ bound
  rw [Nat.add_zero]
  omega

theorem eq_of_handle {h' : Handle} (hh : run.follower.handle = some h)
    (hh' : run.follower.handle = some h') :
    h' = h := Option.some.inj (hh'.symm.trans hh)

theorem Checked.sound (hc : run.Checked view h done run') (hs : run.follower.Sound)
    (hh : run.follower.handle = some h) : run'.follower.Sound := by
  obtain ⟨hid, hnarrow⟩ := hs h hh
  cases hc with
  | kept handle offset identity =>
    exact Follower.sound_of_handle handle (identity.trans hid) hnarrow
  | refused _ handle number narrow identity =>
    exact Follower.sound_of_handle handle (by rw [identity, hid, number]) narrow
  | same _ handle number narrow identity =>
    exact Follower.sound_of_handle handle (by rw [identity, hid, number]) narrow
  | restarted _ handle number narrow fresh identity =>
    refine Follower.sound_of_handle handle ?_ (narrow.seek 0)
    rw [identity, hid, Handle.number_seek, number]
  | rotated _ handle =>
    intro h' hh'
    rw [handle] at hh'
    cases hh'

/-- A file that the turn goes on with is open. -/
theorem Checked.handle (hc : run.Checked view h done run') (hd : done = false) :
    ∃ h', run'.follower.handle = some h' := by
  cases hc with
  | kept handle => exact ⟨_, handle⟩
  | refused _ handle => exact ⟨_, handle⟩
  | same _ handle => exact ⟨_, handle⟩
  | restarted => cases hd
  | rotated => cases hd

end Run

namespace Work

variable {view : View} {take : Taker} {run : Run} {h : Handle} {bound : Nat}

/-- Of a turn with the file open, a part of what is left is taken or fewer beginnings remain. -/
theorem checked_lasts {run' run'' : Run} (hs : run.follower.Sound) (hl : run.Lasts view bound)
    (hh : run.follower.handle = some h) (hc : run.Checked view h false run')
    (hh' : ∀ h', run'.follower.handle = some h' → run'.Took view h' run'') :
    ∃ m < bound, run''.Lasts view m := by
  obtain ⟨hid, hnarrow⟩ := hs h hh
  cases hl with
  | closed hnone =>
    rw [hnone] at hh
    cases hh
  | other hsome hother hle =>
    obtain rfl := Run.eq_of_handle hh hsome
    cases hc with
    | kept handle offset identity stamp leaves =>
      refine (hh' _ handle).lasts_other hother ?_
      have hmul := Nat.mul_le_mul_right (view.most + 1) (Nat.mul_le_mul_left 3 leaves.looks_le)
      omega
    | refused hpath => exact absurd hpath hother
    | same hpath => exact absurd hpath hother
  | same hsome hpath hstage hsettled hle =>
    rename_i h₁ stage
    obtain rfl := Run.eq_of_handle hh hsome
    cases hc with
    | kept handle offset identity stamp leaves =>
      refine (hh' _ handle).lasts hpath hnarrow hstage ?_ ?_
      · unfold Follower.Settled at hsettled ⊢
        rwa [offset, stamp]
      · have hlooks : 3 * run'.refusals.looks + stage ≤ 3 * run.refusals.looks + stage := by
          have := leaves.looks_le
          omega
        have hmul := Nat.mul_le_mul_right (view.most + 1) hlooks
        omega
    | refused _ handle number narrow identity looks =>
      have hpath' := hpath
      rw [← number] at hpath'
      refine (hh' _ handle).lasts hpath' narrow le_rfl trivial ?_
      have hfewer : 3 * run'.refusals.looks + 2 < 3 * run.refusals.looks + stage := by omega
      have hless := Run.mul_add_lt (c := 0) hfewer (Run.left_le_most hpath' narrow)
      omega
    | same hpath₁ handle number narrow identity changed offset_le stamp leaves =>
      rename_i h'
      have hpath' := hpath
      rw [← number] at hpath' offset_le stamp
      have hsettled' : run'.follower.Settled h' (view.data h'.number) 1 := ⟨stamp, .inr offset_le⟩
      refine (hh' _ handle).lasts hpath' narrow (Nat.le_succ 1) hsettled' ?_
      match stage with
      | 0 => exact absurd hsettled.1 changed
      | 1 => exact absurd hsettled.1 changed
      | 2 =>
        have := leaves.looks_le
        have hfewer : 3 * run'.refusals.looks + 1 < 3 * run.refusals.looks + 2 := by omega
        have hless := Run.mul_add_lt (c := 0) hfewer (Run.left_le_most hpath' narrow)
        omega
      | _ + 3 => omega

/-- A turn that is over after the check leaves the file, or begins it again, which it does less and
less. -/
theorem checked_over_lasts {run' : Run} (hs : run.follower.Sound) (hl : run.Lasts view bound)
    (hh : run.follower.handle = some h) (hc : run.Checked view h true run') :
    ∃ m < bound, run'.Lasts view m := by
  obtain ⟨hid, hnarrow⟩ := hs h hh
  cases hc with
  | rotated hother handle leaves =>
    refine ⟨_, ?_, .closed handle le_rfl⟩
    have hmul := Nat.mul_le_mul_right (view.most + 1) (Nat.mul_le_mul_left 3 leaves.looks_le)
    cases hl with
    | closed hnone =>
      rw [hnone] at hh
      cases hh
    | other hsome _ hle => omega
    | same hsome hpath =>
      obtain rfl := Run.eq_of_handle hh hsome
      exact absurd hpath hother
  | restarted hpath handle number narrow fresh identity changed offset stamp leaves =>
    rename_i h'
    have hpath' : view.number? = some (h'.seek 0).number := by
      rw [Handle.number_seek, number, hpath]
    have hdata : view.data (h'.seek 0).number = view.data h.number := by
      rw [Handle.number_seek, number]
    have hmost := Run.left_le_most hpath' (narrow.seek 0)
    have hlooks := leaves.looks_le
    cases hl with
    | closed hnone =>
      rw [hnone] at hh
      cases hh
    | other hsome hother =>
      obtain rfl := Run.eq_of_handle hh hsome
      exact absurd hpath hother
    | same hsome hpath₁ hstage hsettled hle =>
      rename_i h₁ stage
      obtain rfl := Run.eq_of_handle hh hsome
      rw [← hdata] at stamp
      match stage with
      | 0 =>
        obtain ⟨hstamp, -, hleft⟩ := hsettled
        obtain hlonger | hstamp' := changed
        · omega
        · exact absurd hstamp hstamp'
      | 1 =>
        -- what was read beyond the end came from the window, which is now as the file is
        obtain ⟨hstamp, hwindow⟩ := hsettled
        have hlonger := changed.resolve_right (not_not.2 hstamp)
        have hfresh := (fresh (hwindow.resolve_right (by omega))).seek 0
        have hleft := (fresh (hwindow.resolve_right (by omega))).left_seek_zero
        rw [← hdata] at hfresh hleft
        have hsettled' : run'.follower.Settled (h'.seek 0) (view.data (h'.seek 0).number) 0 := by
          refine ⟨stamp, hfresh, ?_⟩
          rwa [offset, Nat.zero_add]
        have hfewer : 3 * run'.refusals.looks + 0 < 3 * run.refusals.looks + 1 := by omega
        have hless := Run.mul_add_lt (c := 0) hfewer hmost
        exact ⟨_, by omega, .same handle hpath' (Nat.zero_le 2) hsettled' le_rfl⟩
      | 2 =>
        have hsettled' : run'.follower.Settled (h'.seek 0) (view.data (h'.seek 0).number) 1 := by
          refine ⟨stamp, .inr ?_⟩
          rw [offset]
          exact Nat.zero_le _
        have hfewer : 3 * run'.refusals.looks + 1 < 3 * run.refusals.looks + 2 := by omega
        have hless := Run.mul_add_lt (c := 0) hfewer hmost
        exact ⟨_, by omega, .same handle hpath' (Nat.le_succ 1) hsettled' le_rfl⟩
      | _ + 3 => omega

/-- Every turn that does not end in a wait leaves fewer turns to take. -/
theorem wp_turn_lasts (hs : run.follower.Sound) (hp : 10 ∉ run.follower.pending)
    (hl : run.Lasts view bound) :
    wp (turn view take)
      (fun waits run' => run'.follower.Sound ∧ (waits = false → ∃ m < bound, run'.Lasts view m))
      (fun _ _ => True) run := by
  refine wp_turn (fun hclosed => ?_) fun h hh => ?_
  · have hb : 3 * run.refusals.looks * (view.most + 1) + view.most + 1 ≤ bound := by
      cases hl with
      | closed _ hle => exact hle
      | other hsome => simp [hclosed] at hsome
      | same hsome => simp [hclosed] at hsome
    refine (wp_openFile_opened _).mono (fun opened run₁ hopened => ?_) fun _ _ _ => trivial
    cases opened with
    | false =>
      rw [if_neg Bool.false_ne_true] at hopened ⊢
      refine ⟨fun h hh => ?_, nofun⟩
      have hsome : run₁.follower.handle = some h := hh
      rw [hopened, hclosed] at hsome
      cases hsome
    | true =>
      rw [if_pos rfl] at hopened ⊢
      obtain ⟨h, hh, hpath, hnarrow, -⟩ := hopened.handle
      have hh' : (run₁.put { run₁.follower with firstOpen := false }).follower.handle = some h := hh
      have hsound := Follower.sound_of_handle hh' (hopened.identity.trans hpath) hnarrow
      refine (wp_readOn_took hh' hsound).mono (fun waits run₂ htook => ⟨htook.1, fun hw => ?_⟩)
        fun _ _ _ => trivial
      exact hopened.lasts hh (htook.2 hw) hb
  · refine (wp_checkRotation_checked hh hs hp).mono (fun done run₁ hchecked => ?_)
      fun _ _ _ => trivial
    cases done with
    | true =>
      rw [if_pos rfl]
      exact ⟨hchecked.sound hs hh, fun _ => checked_over_lasts hs hl hh hchecked⟩
    | false =>
      rw [if_neg Bool.false_ne_true]
      obtain ⟨h', hh'⟩ := hchecked.handle rfl
      refine (wp_readOn_took hh' (hchecked.sound hs hh)).mono
        (fun waits run₂ htook => ⟨htook.1, fun hw => ?_⟩) fun _ _ _ => trivial
      refine checked_lasts hs hl hh hchecked fun h'' hh'' => ?_
      obtain rfl := Run.eq_of_handle hh' hh''
      exact htook.2 hw

end Work

namespace Follower

variable {view : View} {take : Taker} {run : Run} {I W : Run → Prop}
  {E : Failure → Run → Prop} {bound : Nat}

theorem exists_lasts (view : View) (run : Run) :
    ∃ bound < turnBound view run, run.Lasts view bound := by
  have hbound : turnBound view run = (3 * run.refusals.looks + 2) * (view.most + 1) +
      Work.remaining view run.follower + 2 := rfl
  have hmul := Nat.add_mul (3 * run.refusals.looks) 2 (view.most + 1)
  cases hh : run.follower.handle with
  | none => exact ⟨_, by omega, .closed hh le_rfl⟩
  | some h =>
    have hleft : Work.remaining view run.follower = _ := Work.remaining_eq_left hh
    by_cases hpath : view.number? = some h.number
    · exact ⟨_, by omega, .same hh hpath le_rfl trivial le_rfl⟩
    · exact ⟨_, by omega, .other hh hpath le_rfl⟩

theorem turns_ends_of_lasts
    (hturn : ∀ run, I run →
      Work.wp (Work.turn view take) (fun waits run' => if waits then W run' else I run') E run)
    {fuel : Nat} (hI : I run) (hs : run.follower.Sound) (hp : 10 ∉ run.follower.pending)
    (hl : run.Lasts view bound) (hfuel : bound < fuel) :
    (turns view take fuel run).Ends (fun run' => W run' ∧ run'.follower.Sound ∧
      10 ∉ run'.follower.pending) E := by
  induction fuel generalizing run bound with
  | zero => exact absurd hfuel (Nat.not_lt_zero _)
  | succ fuel ih =>
    have hstep := ((hturn run hI).and (Work.wp_turn_lasts hs hp hl)).and (Work.tame_turn take hp)
    refine turns_succ_ends (hstep.mono (fun waits run' h => ?_) fun _ _ h => h.1.1)
    obtain ⟨⟨hnext, hsound, hlasts⟩, hworks⟩ := h
    cases waits with
    | true => exact ⟨hnext, hsound, hworks.pending⟩
    | false =>
      obtain ⟨m, hm, hl'⟩ := hlasts rfl
      exact ih hnext hsound hworks.pending hl' (by omega)

/-- A poll comes to an end: what every turn of it does, all of them do. -/
theorem poll_ends
    (hturn : ∀ run, I run →
      Work.wp (Work.turn view take) (fun waits run' => if waits then W run' else I run') E run)
    (hI : I run) (hs : run.follower.Sound) (hp : 10 ∉ run.follower.pending) :
    (poll view take run).Ends (fun run' => W run' ∧ run'.follower.Sound ∧
      10 ∉ run'.follower.pending) E := by
  obtain ⟨bound, hbound, hl⟩ := exists_lasts view run
  exact turns_ends_of_lasts hturn hI hs hp hl hbound

end Follower

end LogRelay
