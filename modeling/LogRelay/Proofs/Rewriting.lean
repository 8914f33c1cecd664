import LogRelay.Proofs.Reading
import LogRelay.Proofs.Turns

/-!
# A file that is rewritten in place

Between two polls anything can be done to the open file: it may be cut, extended or written anew,
with or without a new time.  The next poll begins it again exactly if it is shorter than what was
read of it, or if it has changed and does not begin with the head that is remembered
(`Follower.Restarts`).  Either way the poll reads the file as it is by then, to its end
(`meet_rewritten`).

It cannot read anything older, because at a wait nothing is left in the window: wherever a run
without refused calls waits with a file open, the handle stands at the offset whatever the file
holds (`Follower.Rested`).
-/

namespace LogRelay

/-! ## Where the handle stands -/

namespace Follower

/-- A handle that is open stands at the offset, and its window is as the file is. -/
def Stands (f : Follower) (view : View) : Prop :=
  ∀ h, f.handle = some h → h.At (view.data h.number).bytes f.offset

/-- A handle that is open stands at the offset, whatever its file holds. -/
def Rested (f : Follower) : Prop := ∀ view, f.Stands view

variable {f : Follower} {view : View} {h : Handle}

theorem stands_of_closed (hh : f.handle = none) : f.Stands view := by
  intro h' hh'
  rw [hh] at hh'
  cases hh'

theorem stands_of_handle (hh : f.handle = some h) (ha : h.At (view.data h.number).bytes f.offset) :
    f.Stands view := by
  intro h' hh'
  rw [hh] at hh'
  obtain rfl := Option.some.inj hh'
  exact ha

end Follower

namespace Work

variable {o : Occasion} {run : Run} {h : Handle}

/-- Without refused calls a look at how the file begins comes back to the offset. -/
theorem wp_readHead_stands {E : Failure → Run → Prop} (hi : o.Within run)
    (hq : ∀ kind, o.refusals.Spares kind) (hh : run.follower.handle = some h)
    (ha : h.At (o.view.data h.number).bytes run.follower.offset) :
    wp (readHead o.view)
      (fun found run' => found = .ok ((o.view.data h.number).bytes.take headSize) ∧
        run'.events = run.events ∧ ∃ h', run'.follower = { run.follower with handle := some h' } ∧
          h'.number = h.number ∧ h'.At (o.view.data h.number).bytes run.follower.offset) E run := by
  have hstart := ha.seek 0
  have hread := hstart.read_fst headSize
  have hafter := hstart.read_snd headSize
  have hi₁ : o.Within ((run.asked .seek).moved (h.seek 0)) := ⟨hi.pending, (hi.asked .seek).spares⟩
  have hi₂ : o.Within ((((run.asked .seek).moved (h.seek 0)).asked .readHead).moved
      ((h.seek 0).read (o.view.data h.number).bytes headSize).2) :=
    ⟨hi.pending, (hi₁.asked .readHead).spares⟩
  refine wp_readHead hh (fun e he => ?_) (fun _ e he => ?_) (fun _ _ e he => ?_) fun _ _ _ => ?_
  · exact absurd (hq .seek) (hi.not_spares he)
  · exact absurd (hq .readHead) (hi₁.not_spares he)
  · exact absurd (hq .seek) (hi₂.not_spares he)
  · refine ⟨congrArg Except.ok hread, rfl, _, rfl, ?_, hafter.seek _⟩
    rw [Handle.number_seek, Handle.number_read, Handle.number_seek]

/-! ## What a run leaves at a wait -/

/-- What is read on is taken from where the handle stands; if nothing comes, nothing is left in the
window. -/
theorem wp_readOn_stands (hi : o.Within run) (hq : ∀ kind, o.refusals.Spares kind)
    (hh : run.follower.handle = some h) (hs : run.follower.Stands o.view) :
    wp (readOn o.view o.take)
      (fun waits run' => if waits then run'.follower.Rested else run'.follower.Stands o.view)
      (fun _ _ => True) run := by
  have ha := hs h hh
  have hnumber := Handle.number_read h (o.view.data h.number).bytes chunkSize
  unfold readOn
  rw [wp_bind]
  refine wp_readChunk hh (fun e he => absurd (hq .readNext) (hi.not_spares he)) fun _ => ?_
  split
  · next hnil =>
    rw [wp_pure, if_pos rfl]
    intro view
    refine Follower.stands_of_handle rfl ?_
    exact ha.read_nothing (by decide) (by decide) (List.isEmpty_iff.1 hnil) _
  · rw [wp_bind]
    refine wp_deliver (wp_deliverLines (fun _ _ _ _ _ => trivial) ?_)
    rw [wp_pure, if_neg Bool.false_ne_true]
    refine Follower.stands_of_handle rfl ?_
    rw [hnumber]
    exact ha.read_snd chunkSize

theorem wp_checkRotation_stands (hi : o.Within run) (hq : ∀ kind, o.refusals.Spares kind)
    (hh : run.follower.handle = some h) (hsound : run.follower.Sound)
    (hs : run.follower.Stands o.view) :
    wp (checkRotation o.view o.take) (fun _ run' => run'.follower.Stands o.view)
      (fun _ _ => True) run := by
  have ha := hs h hh
  obtain ⟨hid, -⟩ := hsound h hh
  refine wp_checkRotation (fun _ _ _ => ?_) (fun e _ _ => ?_) (fun _ _ _ => trivial)
    (fun _ _ _ _ => ?_) (fun _ _ _ _ _ _ => ?_) fun n _ _ hn _ => ?_
  · exact hs
  · exact wp_recordFailure (fun _ => trivial) fun _ => hs
  · have hp : 10 ∉ (run.asked .stat).follower.pending := hi.pending
    exact (wp_rotate_closed hp).mono (fun _ _ h' => Follower.stands_of_closed h'.1)
      fun _ _ _ => trivial
  · exact hs
  · obtain rfl : n = h.number := Option.some.inj (hn.symm.trans hid)
    have hi₁ := hi.asked .stat
    refine ((wp_readHead_stands (E := fun _ _ => True) hi₁ hq hh ha).within tame_readHead hi₁).mono
      (fun found run₁ h₁ => ?_) fun _ _ h' => h'
    obtain ⟨⟨rfl, -, h', hf, hnumber, ha'⟩, hi₂⟩ := h₁
    have hh₁ : run₁.follower.handle = some h' := by rw [hf]
    rw [← hnumber] at ha'
    refine ⟨nofun, fun head hok _ => ?_, fun head hok _ => ?_⟩
    · have ha₁ : h'.At (o.view.data h'.number).bytes run₁.follower.offset := by
        rw [hf]
        exact ha'
      exact Follower.stands_of_handle hh₁ ha₁
    · refine wp_restart (fun _ _ => trivial) fun _ => ?_
      have hback : run₁.follower.handle.map (·.seek 0) = some (h'.seek 0) := by
        rw [hh₁]
        rfl
      refine Follower.stands_of_handle hback ?_
      rw [Handle.number_seek]
      exact ha'.seek 0

theorem wp_openFile_stands (hh : run.follower.handle = none) (toEnd : Bool) :
    wp (openFile o.view toEnd) (fun _ run' => run'.follower.Stands o.view)
      (fun _ _ => True) run := by
  have habandon (e : IoError) {run' : Run} (hf : run'.follower.handle = none) :
      wp (abandon e) (fun _ run' => run'.follower.Stands o.view) (fun _ _ => True) run' :=
    wp_abandon (fun _ _ => trivial) fun _ =>
      wp_recordFailure (fun _ => trivial) fun _ => Follower.stands_of_closed hf
  refine wp_openFile (fun _ _ _ => Follower.stands_of_closed hh) (fun e _ _ => ?_)
    (fun _ _ _ => trivial) fun n _ _ => ?_
  · exact wp_recordFailure (fun _ => trivial) fun _ => Follower.stands_of_closed hh
  · refine wp_prepare (fun e _ => habandon e hh) (fun _ e _ => habandon e hh) fun _ _ => ?_
    obtain ⟨hnumber, ha⟩ := standing_at (o.view.data n) n toEnd
    rw [← ha.position_eq] at ha
    refine Follower.stands_of_handle rfl ?_
    rw [hnumber]
    exact ha

/-- A turn that ends in a wait leaves nothing in the window. -/
theorem wp_turn_stands (hi : o.Within run) (hq : ∀ kind, o.refusals.Spares kind)
    (hsound : run.follower.Sound) (hs : run.follower.Stands o.view) :
    wp (turn o.view o.take)
      (fun waits run' => if waits then run'.follower.Rested else run'.follower.Stands o.view)
      (fun _ _ => True) run := by
  refine wp_turn (fun hclosed => ?_) fun h hh => ?_
  · have hopen :=
      (wp_openFile_stands (o := o) hclosed
        (run.follower.firstOpen && !run.follower.source.fromStart)).and (wp_openFile_opened _)
    refine (wp.within hopen (tame_openFile _) hi).mono (fun opened run₁ h₁ => ?_)
      fun _ _ _ => trivial
    obtain ⟨⟨hs₁, hopened⟩, hi₁⟩ := h₁
    cases opened with
    | true =>
      obtain ⟨h, hh, -⟩ := hopened.handle
      have hi₂ : o.Within (run₁.put { run₁.follower with firstOpen := false }) :=
        ⟨hi₁.pending, hi₁.spares⟩
      exact wp_readOn_stands hi₂ hq hh hs₁
    | false =>
      have hclosed₁ : run₁.follower.handle = none := hopened.trans hclosed
      exact fun view => Follower.stands_of_closed hclosed₁
  · have hcheck := (wp_checkRotation_stands hi hq hh hsound hs).and
      (wp_checkRotation_checked hh hsound hi.pending)
    refine (wp.within hcheck (tame_checkRotation o.take) hi).mono (fun done run₁ h₁ => ?_)
      fun _ _ _ => trivial
    obtain ⟨⟨hs₁, hchecked⟩, hi₁⟩ := h₁
    cases done with
    | true => exact hs₁
    | false =>
      obtain ⟨h', hh'⟩ := hchecked.handle rfl
      exact wp_readOn_stands hi₁ hq hh' hs₁

end Work

namespace Follower

variable {run : Run} {o : Occasion}

/-- What is left at a wait without refused calls. -/
structure Idle (f : Follower) : Prop where
  rested : f.Rested
  sound : f.Sound
  pending : 10 ∉ f.pending

theorem idle_start (source : Source) (limit : Int) : (start source limit).follower.Idle where
  rested _ := stands_of_closed rfl
  sound := nofun
  pending := List.not_mem_nil

theorem meet_idle (hq : ∀ kind, o.refusals.Spares kind) (h : run.follower.Idle) :
    (meet run o).Ends (fun run' => run'.follower.Idle) (fun _ _ => True) := by
  have hpoll : (meet run o).Ends
      (fun run' => run'.follower.Rested ∧ run'.follower.Sound ∧ 10 ∉ run'.follower.pending)
      (fun _ _ => True) := by
    refine poll_ends (I := fun run' => o.Within run' ∧ run'.follower.Sound ∧
      run'.follower.Stands o.view)
      (fun run' h' => ?_) ⟨o.within_schedule h.pending, h.sound, h.rested o.view⟩ h.sound h.pending
    obtain ⟨hi, hsound, hs⟩ := h'
    obtain ⟨bound, -, hl⟩ := exists_lasts o.view run'
    have hturn := ((Work.wp_turn_stands hi hq hsound hs).within (Work.tame_turn o.take) hi).and
      (Work.wp_turn_lasts hsound hi.pending hl)
    refine hturn.mono (fun waits run'' h'' => ?_) fun _ _ _ => trivial
    obtain ⟨⟨hnext, hi'⟩, hsound', -⟩ := h''
    cases waits with
    | true => exact hnext
    | false => exact ⟨hi', hsound', hnext⟩
  exact hpoll.mono (fun _ h' => ⟨h'.1, h'.2.1, h'.2.2⟩) fun _ _ _ => trivial

/-- Wherever a run without refused calls waits, the handle of an open file stands at the offset. -/
theorem follow_idle {os : List Occasion} (hos : ∀ o ∈ os, ∀ kind, o.refusals.Spares kind)
    (h : run.follower.Idle) :
    (follow run os).Ends (fun run' => run'.follower.Idle) (fun _ _ => True) := by
  induction os generalizing run with
  | nil => exact follow_nil_ends h
  | cons o os ih =>
    refine follow_cons_ends ((meet_idle (hos o List.mem_cons_self) h).mono (fun run' h' => ?_)
      fun _ _ _ => trivial)
    exact ih (fun p hp => hos p (List.mem_cons_of_mem o hp)) h'

end Follower

/-! ## The poll after a rewrite -/

namespace Follower

/-- The file is to be begun again: it is shorter than what was read of it, or it has changed and
begins otherwise than it did. -/
def Restarts (f : Follower) (data : FileData) : Prop :=
  data.bytes.length < f.offset ∨ (data.stamp ≠ f.stamp ∧ ¬ f.head <+: data.bytes.take headSize)

instance (f : Follower) (data : FileData) : Decidable (f.Restarts data) :=
  inferInstanceAs (Decidable (_ ∨ _))

variable {f : Follower} {data : FileData}

theorem not_restarts_of_unchanged (hle : f.offset ≤ data.bytes.length)
    (hstamp : data.stamp = f.stamp) : ¬ f.Restarts data := by
  rintro (hshort | ⟨hother, -⟩)
  · exact Nat.not_lt.2 hle hshort
  · exact hother hstamp

/-- A file that has changed is begun again unless it is long enough and begins as it did. -/
theorem restarts_iff_of_changed (h : ¬ (f.offset ≤ data.bytes.length ∧ data.stamp = f.stamp)) :
    f.Restarts data ↔ ¬ (f.offset ≤ data.bytes.length ∧ f.head <+: data.bytes.take headSize) := by
  refine ⟨?_, fun hcut => ?_⟩
  · rintro (hshort | ⟨-, hother⟩) ⟨hle, hprefix⟩
    · exact Nat.not_lt.2 hle hshort
    · exact hother hprefix
  · by_cases hle : f.offset ≤ data.bytes.length
    · exact .inr ⟨fun hstamp => h ⟨hle, hstamp⟩, fun hprefix => hcut ⟨hle, hprefix⟩⟩
    · exact .inl (Nat.not_le.1 hle)

/-- What is pending when the file is read on. -/
def kept (f : Follower) (data : FileData) : Bytes := if f.Restarts data then [] else f.pending

/-- The octets that the next poll cuts into lines. -/
def due (f : Follower) (data : FileData) : Bytes :=
  if f.Restarts data then data.bytes else f.pending ++ data.bytes.drop f.offset

end Follower

namespace Run

/-- What the next poll reads of the file. -/
def resumption (run : Run) (n : Nat) (data : FileData) : Stretch where
  number := n
  start := if run.follower.Restarts data then 0 else run.follower.offset
  earlier := run.lines
  reopens reason :=
    run.reopens reason + if run.follower.Restarts data ∧ Reopening.truncated = reason then 1 else 0

/-- The file is open, holds `data` and is seen to do so; with `kept` in front, it was read from the
start of the stretch up to the offset. -/
structure Resumes (run : Run) (s : Stretch) (kept : Bytes) (data : FileData) : Prop where
  handle : ∃ h, run.follower.handle = some h ∧ h.number = s.number ∧
    h.At data.bytes run.follower.offset
  identity : run.follower.identity = some s.number
  stamp : run.follower.stamp = data.stamp
  start_le : s.start ≤ run.follower.offset
  offset_le : run.follower.offset ≤ data.bytes.length
  pending : run.follower.pending =
    Lines.unfinished (kept ++ (data.bytes.take run.follower.offset).drop s.start)
  lines : run.lines = s.earlier ++
    (Lines.complete (kept ++ (data.bytes.take run.follower.offset).drop s.start)).map lineText
  reopens : ∀ reason, run.reopens reason = s.reopens reason

/-- The run that follows `before` has read the file `n`, which holds `data`, to its end: its lines
are delivered, those of the whole file if it was begun again. -/
structure Rereads (before after : Run) (n : Nat) (data : FileData) : Prop where
  lines : after.lines = before.lines ++ (Lines.complete (before.follower.due data)).map lineText
  pending : after.follower.pending = Lines.unfinished (before.follower.due data)
  reopens : ∀ reason, after.reopens reason =
    before.reopens reason +
      if before.follower.Restarts data ∧ Reopening.truncated = reason then 1 else 0
  offset : after.follower.offset = data.bytes.length
  handle : ∃ h, after.follower.handle = some h ∧ h.number = n ∧ h.position = data.bytes.length

variable {run run' : Run} {s : Stretch} {kept : Bytes} {data : FileData} {n : Nat}

/-- A run at the start of a stretch has read nothing of it. -/
theorem resumes_of_start {h : Handle} (hh : run.follower.handle = some h) (hn : h.number = s.number)
    (hoffset : run.follower.offset = s.start) (ha : h.At data.bytes s.start)
    (hid : run.follower.identity = some s.number) (hstamp : run.follower.stamp = data.stamp)
    (hle : s.start ≤ data.bytes.length) (hp : 10 ∉ run.follower.pending)
    (hl : run.lines = s.earlier)
    (hr : ∀ reason, run.reopens reason = s.reopens reason) :
    run.Resumes s run.follower.pending data := by
  have hspan : (data.bytes.take run.follower.offset).drop s.start = [] := by
    rw [hoffset]
    exact List.drop_eq_nil_of_le (List.length_take_le _ _)
  exact {
    handle := ⟨h, hh, hn, hoffset ▸ ha⟩
    identity := hid
    stamp := hstamp
    start_le := hoffset.ge
    offset_le := hoffset.trans_le hle
    pending := by rw [hspan, List.append_nil, Lines.unfinished_of_notMem hp]
    lines := by
      rw [hspan, List.append_nil, Lines.complete_of_notMem hp, List.map_nil, List.append_nil, hl]
    reopens := hr }

/-- A run that reads on, with a new stamp and head or as it was. -/
theorem resumes_of_kept {h : Handle} (hr : ¬ run.follower.Restarts data)
    (hh : run'.follower.handle = some h) (ha : h.At data.bytes run.follower.offset)
    (hoffset : run'.follower.offset = run.follower.offset)
    (hid : run'.follower.identity = some h.number)
    (hstamp : run'.follower.stamp = data.stamp)
    (hpending : run'.follower.pending = run.follower.pending)
    (hp : 10 ∉ run.follower.pending) (hevents : run'.events = run.events) :
    run'.Resumes (run.resumption h.number data) (run.follower.kept data) data := by
  have hstart : (run.resumption h.number data).start = run.follower.offset := if_neg hr
  have hkept : run.follower.kept data = run'.follower.pending := (if_neg hr).trans hpending.symm
  have hle : run.follower.offset ≤ data.bytes.length := Nat.not_lt.1 fun hshort => hr (.inl hshort)
  have hnone (reason : Reopening) : ¬ (run.follower.Restarts data ∧ Reopening.truncated = reason) :=
    fun hboth => hr hboth.1
  rw [hkept]
  refine resumes_of_start hh rfl (hoffset.trans hstart.symm) (hstart.symm ▸ ha) hid hstamp
    (hstart.trans_le hle)
    (hpending ▸ hp) (congrArg (fun es => es.reverse.filterMap FollowEvent.line?) hevents)
      fun reason => ?_
  show _ = run.reopens reason + if _ then 1 else 0
  rw [if_neg (hnone reason), Nat.add_zero, reopens_congr hevents]

/-- A run that begins the file again. -/
theorem resumes_of_restarted {h : Handle} (hr : run.follower.Restarts data)
    (hh : run'.follower.handle = some h) (ha : h.At data.bytes 0)
    (hoffset : run'.follower.offset = 0)
    (hid : run'.follower.identity = some h.number) (hstamp : run'.follower.stamp = data.stamp)
    (hpending : run'.follower.pending = [])
    (hevents : run'.events = .reopened .truncated :: .noticed .truncated :: run.events) :
    run'.Resumes (run.resumption h.number data) (run.follower.kept data) data := by
  have hstart : (run.resumption h.number data).start = 0 := if_pos hr
  have hkept : run.follower.kept data = run'.follower.pending := (if_pos hr).trans hpending.symm
  have hlog : run'.events = ((run.log (.noticed .truncated)).log (.reopened .truncated)).events :=
    hevents
  rw [hkept]
  refine resumes_of_start hh rfl (hoffset.trans hstart.symm) (hstart.symm ▸ ha) hid hstamp
    (hstart.trans_le (Nat.zero_le _)) (hpending ▸ List.not_mem_nil) ?_ fun reason => ?_
  · have hlines := congrArg (fun es => es.reverse.filterMap FollowEvent.line?) hlog
    refine hlines.trans ?_
    show ((run.log (.noticed .truncated)).log (.reopened .truncated)).lines = run.lines
    simp [lines_log, FollowEvent.line?]
  · show _ = run.reopens reason + if _ then 1 else 0
    rw [reopens_congr hlog, reopens_log_reopened, reopens_log_of_eq_none rfl]
    simp [hr]

theorem Resumes.asked (h : run.Resumes s kept data) (kind : CallKind) :
    (run.asked kind).Resumes s kept data :=
  ⟨h.handle, h.identity, h.stamp, h.start_le, h.offset_le, h.pending, h.lines, h.reopens⟩

/-- At the end of the file all that was due is cut into lines. -/
theorem Resumes.rereads (h : run'.Resumes (run.resumption n data) (run.follower.kept data) data)
    (hend : run'.follower.offset = data.bytes.length) : run.Rereads run' n data := by
  have hdue : run.follower.kept data ++
      (data.bytes.take run'.follower.offset).drop (run.resumption n data).start =
        run.follower.due data := by
    rw [hend, List.take_length, Follower.kept, Follower.due]
    by_cases hr : run.follower.Restarts data
    · rw [if_pos hr, if_pos hr, resumption, if_pos hr]
      rfl
    · rw [if_neg hr, if_neg hr, resumption, if_neg hr]
  obtain ⟨handle, hh, hn, ha⟩ := h.handle
  exact {
    lines := hdue ▸ h.lines
    pending := hdue ▸ h.pending
    reopens := h.reopens
    offset := hend
    handle := ⟨handle, hh, hn, ha.position_eq.trans hend⟩ }

end Run

namespace Work

variable {o : Occasion} {run : Run} {s : Stretch} {kept : Bytes} {E : Failure → Run → Prop}

/-- Reading on takes something over, or the end of the file is reached. -/
theorem wp_readOn_resumes (hi : o.Within run) (hq : ∀ kind, o.refusals.Spares kind)
    (hr : run.Resumes s kept (o.view.data s.number)) :
    wp (readOn o.view o.take)
      (fun waits run' => run'.Resumes s kept (o.view.data s.number) ∧
        (waits → run'.follower.offset = (o.view.data s.number).bytes.length))
      (fun f _ => ∃ t, o.take t = some f) run := by
  obtain ⟨h, hh, hn, ha⟩ := hr.handle
  have hread := ha.read_fst chunkSize
  have hafter := ha.read_snd chunkSize
  have hnumber := Handle.number_read h (o.view.data s.number).bytes chunkSize
  unfold readOn
  rw [wp_bind]
  refine wp_readChunk hh (fun e he => absurd (hq .readNext) (hi.not_spares he)) fun _ => ?_
  rw [hn]
  split
  · next hnil =>
    have hend : (o.view.data s.number).bytes.drop run.follower.offset = [] := by
      rw [hread, List.isEmpty_iff, List.take_eq_nil_iff] at hnil
      exact hnil.resolve_left (by decide)
    have hstay :=
      ha.read_nothing (by decide) (by decide) (List.isEmpty_iff.1 hnil) (o.view.data s.number).bytes
    refine ⟨?_, fun _ => le_antisymm hr.offset_le (List.drop_eq_nil_iff.1 hend)⟩
    exact ⟨⟨_, rfl, hnumber.trans hn, hstay⟩, hr.identity, hr.stamp, hr.start_le,
      hr.offset_le, hr.pending, hr.lines, hr.reopens⟩
  · have hprefix : (h.read (o.view.data s.number).bytes chunkSize).1 <+:
        (o.view.data s.number).bytes.drop run.follower.offset := by
      rw [hread]
      exact List.take_prefix _ _
    have hspan := Run.span_append hr.start_le hr.offset_le hprefix
    have hlen := hprefix.length_le
    rw [List.length_drop] at hlen
    rw [wp_bind]
    refine wp_deliver (wp_deliverLines (fun _ l _ _ hf => ⟨lineText l, hf⟩) ⟨?_, nofun⟩)
    exact {
      handle := ⟨_, rfl, hnumber.trans hn, hafter⟩
      identity := hr.identity
      stamp := hr.stamp
      start_le := hr.start_le.trans (Nat.le_add_right _ _)
      offset_le := by
        have := hr.offset_le
        show run.follower.offset + _ ≤ _
        omega
      pending := by
        show Lines.unfinished (run.follower.pending ++ _) = _
        rw [hr.pending, ← Lines.unfinished_append, List.append_assoc, ← hspan]
        rfl
      lines := by
        rw [Run.lines_logLines]
        show run.lines ++ (Lines.complete (run.follower.pending ++ _)).map lineText = _
        rw [hr.lines, hr.pending, List.append_assoc, ← List.map_append, ← Lines.complete_append,
          List.append_assoc, ← hspan]
        rfl
      reopens := fun reason => (Run.reopens_logLines _ _ reason).trans (hr.reopens reason) }

/-- A check while the file is read on finds it unchanged. -/
theorem wp_checkRotation_resumes (hi : o.Within run) (hq : ∀ kind, o.refusals.Spares kind)
    (hpath : o.view.target = .file s.number) (hr : run.Resumes s kept (o.view.data s.number)) :
    wp (checkRotation o.view o.take)
      (fun _ run' => run'.Resumes s kept (o.view.data s.number)) E run := by
  have hnumber := View.number?_of_file hpath
  have hfound : run.error? o.view .stat = none :=
    Run.error?_of_found (hi.refusal? (hq .stat)) hnumber
  refine wp_checkRotation (fun e he => ?_) (fun e he => ?_) (fun why hwhy => ?_)
    (fun n hn _ hother => ?_) (fun _ _ _ _ _ _ => hr.asked .stat) fun n _ _ hn hchanged => ?_
  · rw [hfound] at he
    cases he
  · rw [hfound] at he
    cases he
  · rw [hpath] at hwhy
    cases hwhy
  · exact absurd (hr.identity.trans (hnumber.symm.trans hn)) hother
  · obtain rfl : n = s.number := Option.some.inj (hn.symm.trans hr.identity)
    exact absurd ⟨hr.offset_le, hr.stamp.symm⟩ hchanged

/-- A file that is begun again is read from its start, with nothing pending. -/
theorem wp_restart_resumes {run₁ : Run} {h : Handle} {data : FileData} {head : Bytes} {offset : Nat}
    (hr : run.follower.Restarts data) (hh : run₁.follower.handle = some h)
    (hid : run₁.follower.identity = some h.number) (ha : h.At data.bytes offset)
    (hevents : run₁.events = run.events) (hspared : run₁.refusals.Spares .seek) :
    wp (restart data.stamp head)
      (fun _ run' => run'.Resumes (run.resumption h.number data) (run.follower.kept data) data)
      E run₁ := by
  have hback : run₁.follower.handle.map (·.seek 0) = some (h.seek 0) := by
    rw [hh]
    rfl
  refine wp_restart (fun e he => ?_) fun _ => ?_
  · have hpassed : run₁.refusal? .seek = some e := he
    rw [Run.refusal?_of_spares hspared] at hpassed
    cases hpassed
  · rw [← Handle.number_seek h 0] at hid ⊢
    refine Run.resumes_of_restarted hr hback (ha.seek 0) rfl hid rfl rfl ?_
    exact congrArg (.reopened .truncated :: .noticed .truncated :: ·) hevents

/-- The first check begins the file again or goes on with it, as `Restarts` says. -/
theorem wp_checkRotation_rested {h : Handle} (hi : o.Within run)
    (hq : ∀ kind, o.refusals.Spares kind)
    (hpath : o.view.target = .file h.number) (hidle : run.follower.Idle)
    (hh : run.follower.handle = some h) :
    wp (checkRotation o.view o.take)
      (fun _ run' => run'.Resumes (run.resumption h.number (o.view.data h.number))
        (run.follower.kept (o.view.data h.number)) (o.view.data h.number)) E run := by
  have hid : run.follower.identity = some h.number := (hidle.sound h hh).1
  have ha : h.At (o.view.data h.number).bytes run.follower.offset := hidle.rested o.view h hh
  have hnumber := View.number?_of_file hpath
  have hfound : run.error? o.view .stat = none :=
    Run.error?_of_found (hi.refusal? (hq .stat)) hnumber
  refine wp_checkRotation (fun e he => ?_) (fun e he => ?_) (fun why hwhy => ?_)
    (fun n hn _ hother => ?_) (fun n _ _ hn hle hstamp => ?_) fun n _ _ hn hchanged => ?_
  · rw [hfound] at he
    cases he
  · rw [hfound] at he
    cases he
  · rw [hpath] at hwhy
    cases hwhy
  · exact absurd (hid.trans (hnumber.symm.trans hn)) hother
  · obtain rfl : n = h.number := Option.some.inj (hn.symm.trans hid)
    have hr := Follower.not_restarts_of_unchanged hle hstamp
    exact Run.resumes_of_kept hr hh ha rfl hid hstamp.symm rfl hi.pending rfl
  · obtain rfl : n = h.number := Option.some.inj (hn.symm.trans hid)
    have hiff := Follower.restarts_iff_of_changed hchanged
    have hi₁ := hi.asked .stat
    refine ((wp_readHead_stands hi₁ hq hh ha).within tame_readHead hi₁).mono
      (fun found run₁ h₁ => ?_) fun _ _ hE => hE
    obtain ⟨⟨rfl, hevents, h', hf, hn', ha'⟩, hi₂⟩ := h₁
    have hh₁ : run₁.follower.handle = some h' := by rw [hf]
    have hid₁ : run₁.follower.identity = some h'.number := by rw [hf, hn', Run.follower_asked, hid]
    rw [← hn'] at ha' hiff ⊢
    refine ⟨fun e he => ?_, fun head hok hsame => ?_, fun head hok hcut => ?_⟩
    · cases he
    · obtain rfl := Except.ok.inj hok
      refine Run.resumes_of_kept (fun hr => hiff.1 hr hsame) hh₁ ha' ?_ hid₁ rfl ?_
        hi.pending hevents
      · show run₁.follower.offset = _
        rw [hf, Run.follower_asked]
      · show run₁.follower.pending = _
        rw [hf, Run.follower_asked]
    · obtain rfl := Except.ok.inj hok
      exact wp_restart_resumes (hiff.2 hcut) hh₁ hid₁ ha' hevents (hi₂.spares .seek (hq .seek))

/-- A turn whose check leaves something to read reads on, unless the check was all of it. -/
theorem wp_turn_resumes {h : Handle} (hi : o.Within run) (hq : ∀ kind, o.refusals.Spares kind)
    (hh : run.follower.handle = some h)
    (hcheck : wp (checkRotation o.view o.take)
      (fun _ run' => run'.Resumes s kept (o.view.data s.number))
      (fun f _ => ∃ t, o.take t = some f) run) :
    wp (turn o.view o.take)
      (fun waits run' => run'.Resumes s kept (o.view.data s.number) ∧
        (waits → run'.follower.offset = (o.view.data s.number).bytes.length))
      (fun f _ => ∃ t, o.take t = some f) run := by
  refine wp_turn (fun hclosed => ?_) fun _ _ => ?_
  · rw [hclosed] at hh
    cases hh
  · refine (hcheck.within (tame_checkRotation o.take) hi).mono (fun done run₁ h₁ => ?_)
      fun _ _ hf => hf
    obtain ⟨hr, hi₁⟩ := h₁
    cases done with
    | true => exact ⟨hr, nofun⟩
    | false => exact wp_readOn_resumes hi₁ hq hr

end Work

namespace Follower

variable {run : Run} {o : Occasion}

/-- A poll that finds the open file at the path, with whatever it holds by then, reads it to its
end. -/
theorem meet_rereads {h : Handle} (hq : ∀ kind, o.refusals.Spares kind)
    (hpath : o.view.target = .file h.number) (hidle : run.follower.Idle)
    (hh : run.follower.handle = some h) :
    (meet run o).Ends (fun run' => run.Rereads run' h.number (o.view.data h.number))
      (fun f _ => ∃ t, o.take t = some f) := by
  set data := o.view.data h.number
  set begun : Run := { run with refusals := o.refusals }
  set s := run.resumption h.number data
  have hbegun : o.Within begun := o.within_schedule hidle.pending
  have hpoll : (meet run o).Ends
      (fun run' => (run'.Resumes s (run.follower.kept data) data ∧
        run'.follower.offset = data.bytes.length) ∧
        run'.follower.Sound ∧ 10 ∉ run'.follower.pending)
      (fun f _ => ∃ t, o.take t = some f) := by
    refine poll_ends
      (I := fun run' => o.Within run' ∧
        (run' = begun ∨ run'.Resumes s (run.follower.kept data) data))
      (fun run' h' => ?_) ⟨hbegun, .inl rfl⟩ hidle.sound hidle.pending
    obtain ⟨hi, hstate⟩ := h'
    have hturn : Work.wp (Work.turn o.view o.take)
        (fun waits run'' => run''.Resumes s (run.follower.kept data) data ∧
          (waits → run''.follower.offset = data.bytes.length))
        (fun f _ => ∃ t, o.take t = some f) run' := by
      obtain rfl | hr := hstate
      · exact Work.wp_turn_resumes hi hq hh (Work.wp_checkRotation_rested hi hq hpath hidle hh)
      · obtain ⟨h', hh', -⟩ := hr.handle
        exact Work.wp_turn_resumes hi hq hh' (Work.wp_checkRotation_resumes hi hq hpath hr)
    refine (hturn.within (Work.tame_turn o.take) hi).mono (fun waits run'' h'' => ?_)
      fun _ _ hf => hf
    obtain ⟨⟨hr, hend⟩, hi'⟩ := h''
    cases waits with
    | true => exact ⟨hr, hend rfl⟩
    | false => exact ⟨hi', .inr hr⟩
  exact hpoll.mono (fun run' h' => h'.1.1.rereads h'.1.2) fun _ _ hf => hf

/-- Wherever a run without refused calls waits with a file open, the next poll begins that file
again exactly if it is shorter than what was read of it, or if its stamp has changed and it does not
begin with the head that is remembered.  The lines delivered are those of the whole file then, and
else those of what was pending with the octets behind the offset; in the end the handle stands
behind the last octet. -/
theorem meet_rewritten {source : Source} {limit : Int} {os : List Occasion} {h : Handle}
    (hos : ∀ o ∈ os, ∀ kind, o.refusals.Spares kind)
    (hwaits : (follow (start source limit) os).ending = .waits)
    (hopen : (follow (start source limit) os).run.follower.handle = some h)
    (hq : ∀ kind, o.refusals.Spares kind) (hpath : o.view.target = .file h.number) :
    (meet (follow (start source limit) os).run o).Ends
      (fun run' => (follow (start source limit) os).run.Rereads run' h.number
        (o.view.data h.number))
      (fun f _ => ∃ t, o.take t = some f) := by
  have hidle : (follow (start source limit) os).run.follower.Idle := by
    cases follow_idle hos (idle_start source limit) with
    | waits _ hidle => exact hidle
    | fails hfails _ =>
      rw [hwaits] at hfails
      cases hfails
  exact meet_rereads hq hpath hidle hopen

/-- A log with an unfinished line. -/
def wholeLog : Occasion := ⟨⟨.file 7, fun _ => ⟨[97, 98, 10, 99], 1, 0⟩⟩, .none, fun _ => none⟩

/-- The same log, written anew with as many octets. -/
def rewrittenLog : Occasion :=
  ⟨⟨.file 7, fun _ => ⟨[120, 10, 121, 122], 2, 0⟩⟩, .none, fun _ => none⟩

theorem meet_rewrittenLog :
    (∀ o ∈ [wholeLog], ∀ kind, o.refusals.Spares kind) ∧
    (follow (start ⟨"app", ⟨.none, ["app.log"]⟩, true, false, .web⟩ 3) [wholeLog]).ending = .waits ∧
    (follow (start ⟨"app", ⟨.none, ["app.log"]⟩, true, false, .web⟩ 3)
      [wholeLog]).run.follower.handle = some ⟨7, 4, [], 0⟩ ∧
    (∀ kind, rewrittenLog.refusals.Spares kind) ∧ rewrittenLog.view.target = .file 7 ∧
    (meet (follow (start ⟨"app", ⟨.none, ["app.log"]⟩, true, false, .web⟩ 3) [wholeLog]).run
      rewrittenLog).Ends
      (fun run => run.lines = ["ab", "x"] ∧ run.follower.pending = [121, 122] ∧
        run.reopens .truncated = 1)
      (fun _ _ => False) := by
  have hcalm : ∀ o ∈ [wholeLog], ∀ kind, o.refusals.Spares kind := by
    intro o ho
    obtain rfl := List.mem_singleton.1 ho
    exact Refusals.spares_none
  have hopen : (follow (start ⟨"app", ⟨.none, ["app.log"]⟩, true, false, .web⟩ 3)
      [wholeLog]).run.follower.handle = some ⟨7, 4, [], 0⟩ := by rfl
  refine ⟨hcalm, by rfl, hopen, Refusals.spares_none, rfl, ?_⟩
  refine (meet_rewritten hcalm (by rfl) hopen Refusals.spares_none rfl).mono (fun run h => ?_)
    fun f run h => ?_
  · exact ⟨h.lines, h.pending, h.reopens .truncated⟩
  · obtain ⟨t, ht⟩ := h
    cases ht

end Follower

end LogRelay
