import LogRelay.Proofs.Composition
import LogRelay.Proofs.Handle

/-!
# Reading one file

A follower that has a file open is tied to what the file holds (`Run.Reads`): it stands at its
offset, has delivered the complete lines up to there and keeps what is unfinished.  This holds
however the octets came into the file and in which chunks they were read; it survives refused calls
(`wp_readOn`) and every check that finds the same file with more octets (`wp_checkRotation_same`),
unless the check has moved the file and is then refused the look at how it begins, or the way back
(`Run.Strayed`).

A follower that has no file open waits for one (`Run.Waits`).
-/

namespace LogRelay

/-! ## States of a follower -/

/-- What is read: which file and from which offset on, with what went before. -/
structure Stretch where
  number : Nat
  start : Nat
  /-- The lines that were delivered before. -/
  earlier : List Text
  /-- How often reading was begun again before. -/
  reopens : Reopening → Nat

/-- All lines that a file gives from the start of the stretch on, behind those that were delivered
before. -/
def Stretch.told (s : Stretch) (bytes : Bytes) : List Text :=
  s.earlier ++ (Lines.complete (bytes.drop s.start)).map lineText

namespace Run

/-- The file is open and holds `bytes`; it was read from the start up to the offset, and the chunk
behind that is read but not taken over. -/
structure Holds (run : Run) (s : Stretch) (bytes chunk : Bytes) : Prop where
  handle : ∃ h, run.follower.handle = some h ∧ h.number = s.number ∧
    h.At bytes (run.follower.offset + chunk.length)
  identity : run.follower.identity = some s.number
  head_prefix : run.follower.head <+: bytes
  head_length : run.follower.head.length ≤ headSize
  start_le : s.start ≤ run.follower.offset
  offset_le : run.follower.offset ≤ bytes.length
  chunk_prefix : chunk <+: bytes.drop run.follower.offset
  tried : run.follower.firstOpen = false
  pending : run.follower.pending = Lines.unfinished ((bytes.take run.follower.offset).drop s.start)
  lines : run.lines =
    s.earlier ++ (Lines.complete ((bytes.take run.follower.offset).drop s.start)).map lineText
  reopens : ∀ reason, run.reopens reason = s.reopens reason

/-- The file is open and holds `bytes`, and all that was read of it is taken over. -/
def Reads (run : Run) (s : Stretch) (bytes : Bytes) : Prop := run.Holds s bytes []

/-- No file is open. -/
structure Waits (run : Run) (earlier : List Text) (reopens : Reopening → Nat) : Prop where
  handle : run.follower.handle = none
  pending : 10 ∉ run.follower.pending
  lines : run.lines = earlier
  reopens : ∀ reason, run.reopens reason = reopens reason

/-- The open file was moved for a look at how it begins, and then the look or the way back was
refused. -/
def Strayed (run : Run) : Prop := ∃ errno,
  [⟨.readHead, some errno⟩, ⟨.seek, none⟩] <:+: run.calls ∨
    [⟨.seek, some errno⟩, ⟨.readHead, none⟩, ⟨.seek, none⟩] <:+: run.calls

variable {run : Run} {s : Stretch} {bytes chunk : Bytes}

/-! ### What leaves them as they are -/

theorem Holds.asked (h : run.Holds s bytes chunk) (kind : CallKind) :
    (run.asked kind).Holds s bytes chunk :=
  ⟨h.handle, h.identity, h.head_prefix, h.head_length, h.start_le, h.offset_le,
    h.chunk_prefix, h.tried, h.pending, h.lines, h.reopens⟩

theorem Holds.schedule (h : run.Holds s bytes chunk) (rs : Refusals) :
    Run.Holds { run with refusals := rs } s bytes chunk :=
  ⟨h.handle, h.identity, h.head_prefix, h.head_length, h.start_le, h.offset_le,
    h.chunk_prefix, h.tried, h.pending, h.lines, h.reopens⟩

theorem Holds.log (h : run.Holds s bytes chunk) {e : FollowEvent} (hl : e.line? = none)
    (hr : e.reopened? = none) : (run.log e).Holds s bytes chunk where
  handle := h.handle
  identity := h.identity
  head_prefix := h.head_prefix
  head_length := h.head_length
  start_le := h.start_le
  offset_le := h.offset_le
  chunk_prefix := h.chunk_prefix
  tried := h.tried
  pending := h.pending
  lines := (lines_log_of_eq_none hl).trans h.lines
  reopens reason := (reopens_log_of_eq_none hr reason).trans (h.reopens reason)

/-- A handle in the same place and a new head, with any stamp and count of failures. -/
theorem Holds.put (h : run.Holds s bytes chunk) {handle : Handle} (hn : handle.number = s.number)
    (ha : handle.At bytes (run.follower.offset + chunk.length)) {head : Bytes} (hp : head <+: bytes)
    (hl : head.length ≤ headSize) (stamp : Stamp) (failures : Nat) :
    (run.put { run.follower with
      handle := some handle, head, stamp, failures }).Holds s bytes chunk :=
  ⟨⟨handle, rfl, hn, ha⟩, h.identity, hp, hl, h.start_le, h.offset_le, h.chunk_prefix, h.tried,
    h.pending, h.lines, h.reopens⟩

theorem Holds.failed (h : run.Holds s bytes chunk) (e : IoError) :
    (run.failed e).Holds s bytes chunk := by
  obtain ⟨handle, hh, hn, ha⟩ := h.handle
  have hf : run.follower.handle = some handle := hh
  have hput :=
    h.put hn ha h.head_prefix h.head_length run.follower.stamp (run.follower.failures + 1)
  rw [← hf] at hput
  exact hput.log rfl rfl

theorem Strayed.mono {run' : Run} (h : run.Strayed) (hcalls : run.calls <:+ run'.calls) :
    run'.Strayed := by
  obtain ⟨errno, h⟩ := h
  exact ⟨errno, h.imp (fun h => h.trans hcalls.isInfix) fun h => h.trans hcalls.isInfix⟩

/-- Octets that are added to the file leave what was read of it as it is. -/
theorem Reads.mono {more : Bytes} (h : run.Reads s bytes) (hb : bytes <+: more) :
    run.Reads s more := by
  obtain ⟨handle, hh, hn, ha⟩ := h.handle
  have htake : more.take run.follower.offset = bytes.take run.follower.offset := by
    obtain ⟨added, rfl⟩ := hb
    exact List.take_append_of_le_length h.offset_le
  exact {
    handle := ⟨handle, hh, hn, ha.mono hb⟩
    identity := h.identity
    head_prefix := h.head_prefix.trans hb
    head_length := h.head_length
    start_le := h.start_le
    offset_le := h.offset_le.trans hb.length_le
    chunk_prefix := List.nil_prefix
    tried := h.tried
    pending := htake ▸ h.pending
    lines := htake ▸ h.lines
    reopens := h.reopens }

theorem Waits.asked {earlier : List Text} {reopens : Reopening → Nat}
    (h : run.Waits earlier reopens) (kind : CallKind) : (run.asked kind).Waits earlier reopens :=
  ⟨h.handle, h.pending, h.lines, h.reopens⟩

theorem Waits.log {earlier : List Text} {reopens : Reopening → Nat} (h : run.Waits earlier reopens)
    {e : FollowEvent} (hl : e.line? = none) (hr : e.reopened? = none) :
    (run.log e).Waits earlier reopens where
  handle := h.handle
  pending := h.pending
  lines := (lines_log_of_eq_none hl).trans h.lines
  reopens reason := (reopens_log_of_eq_none hr reason).trans (h.reopens reason)

/-! ### Taking over -/

/-- Octets between an offset and the end of a chunk behind a later one. -/
theorem span_append {bytes chunk : Bytes} {start offset : Nat} (hs : start ≤ offset)
    (ho : offset ≤ bytes.length) (hc : chunk <+: bytes.drop offset) :
    (bytes.take (offset + chunk.length)).drop start = (bytes.take offset).drop start ++ chunk := by
  have hlen : start ≤ (bytes.take offset).length := by
    rw [List.length_take]
    exact le_min hs (hs.trans ho)
  rw [List.take_add, ← List.prefix_iff_eq_take.1 hc, List.drop_append_of_le_length hlen]

/-- What lies between the start and the end of the chunk. -/
theorem Holds.span_append (h : run.Holds s bytes chunk) :
    (bytes.take (run.follower.offset + chunk.length)).drop s.start =
      (bytes.take run.follower.offset).drop s.start ++ chunk :=
  Run.span_append h.start_le h.offset_le h.chunk_prefix

/-- What lies behind the start of the stretch: what was taken over, and the rest. -/
theorem Holds.drop_start (h : run.Holds s bytes chunk) :
    bytes.drop s.start = (bytes.take run.follower.offset).drop s.start ++
    bytes.drop run.follower.offset := by
  have hlen : s.start ≤ (bytes.take run.follower.offset).length := by
    rw [List.length_take]
    exact le_min h.start_le (h.start_le.trans h.offset_le)
  rw [← List.drop_append_of_le_length hlen, List.take_append_drop]

theorem Holds.lines_prefix (h : run.Holds s bytes chunk) : run.lines <+: s.told bytes := by
  rw [h.lines, Stretch.told, h.drop_start, Lines.complete_append,
    List.map_append, ← List.append_assoc]
  exact List.prefix_append _ _

/-- With the chunk taken over and its complete lines delivered, the file is read up to its end. -/
theorem Holds.taken (h : run.Holds s bytes chunk) :
    ((run.put (Work.taking run.follower chunk)).logLines
      (Lines.complete (run.follower.pending ++ chunk))).Reads s bytes := by
  obtain ⟨handle, hh, hn, ha⟩ := h.handle
  have hlen : chunk.length ≤ (bytes.drop run.follower.offset).length := h.chunk_prefix.length_le
  rw [List.length_drop] at hlen
  have hoff := h.offset_le
  exact {
    handle := ⟨handle, hh, hn, ha⟩
    identity := h.identity
    head_prefix := h.head_prefix
    head_length := h.head_length
    start_le := h.start_le.trans (Nat.le_add_right _ _)
    offset_le := by
      show run.follower.offset + chunk.length ≤ bytes.length
      omega
    chunk_prefix := List.nil_prefix
    tried := h.tried
    pending := by
      show Lines.unfinished (run.follower.pending ++ chunk) = Lines.unfinished _
      rw [follower_logLines, follower_put, Work.taking, h.span_append,
        h.pending, ← Lines.unfinished_append]
    lines := by
      rw [lines_logLines]
      show run.lines ++ _ = _
      rw [h.lines, follower_logLines, follower_put, Work.taking, h.span_append, h.pending,
        Lines.complete_append (List.drop s.start _) chunk, List.map_append, List.append_assoc]
    reopens := fun reason => (reopens_logLines _ _ reason).trans (h.reopens reason) }

end Run

/-! ## How a poll fails -/

namespace Occasion

/-- Something that is asked for on the occasion may be refused. -/
def Troubled (o : Occasion) : Prop :=
  (∃ kind, ¬ o.refusals.Spares kind) ∨ ∃ e, o.view.target = .unreachable e ∧ e ≠ .noEntry

/-- A call by which a file is looked at when it is opened or has changed may be refused. -/
def Hinders (o : Occasion) : Prop := ¬ o.refusals.Spares .seek ∨ ¬ o.refusals.Spares .readHead

theorem Hinders.troubled {o : Occasion} (h : o.Hinders) : o.Troubled := by
  obtain h | h := h
  · exact .inl ⟨.seek, h⟩
  · exact .inl ⟨.readHead, h⟩

/-- Why a poll fails: a line is not taken, or too much was refused. -/
inductive Breaks (o : Occasion) : Failure → Run → Prop
  | line {t : Text} {f : Failure} {run : Run} (h : o.take t = some f) : o.Breaks f run
  | limit {reason : Text} {run : Run} (h : o.Troubled)
      (hl : run.follower.limit ≤ run.follower.failures) :
      o.Breaks (.tail run.follower.source.path.text reason) run

/-- The poll fails while the file is read in the stretch, which gives no line but those it holds. -/
structure Stops (o : Occasion) (s : Stretch) (bytes : Bytes) (f : Failure) (run : Run) : Prop where
  cause : o.Breaks f run ∨ o.Hinders
  reopens : ∀ reason, run.reopens reason = s.reopens reason
  lines : run.lines <+: s.told bytes

/-- The open file was left astray by a refused call. -/
structure Strays (o : Occasion) (run : Run) : Prop where
  strayed : run.Strayed
  hinders : o.Hinders

/-- The run is in a poll on the occasion. -/
structure Within (o : Occasion) (run : Run) : Prop where
  pending : 10 ∉ run.follower.pending
  spares : ∀ kind, o.refusals.Spares kind → run.refusals.Spares kind

variable {o : Occasion} {run : Run}

theorem within_schedule (o : Occasion) (h : 10 ∉ run.follower.pending) :
    o.Within { run with refusals := o.refusals } := ⟨h, fun _ hs => hs⟩

theorem Within.works {run' : Run} (h : o.Within run) (hw : run.Works run') : o.Within run' :=
  ⟨hw.pending, fun kind hs => hw.leaves.spares (h.spares kind hs)⟩

theorem Within.asked (h : o.Within run) (kind : CallKind) : o.Within (run.asked kind) :=
  ⟨h.pending, fun k hs => Run.spares_asked (h.spares k hs) kind⟩

theorem Within.refusal? {kind : CallKind} (h : o.Within run) (hs : o.refusals.Spares kind) :
    run.refusal? kind = none := Run.refusal?_of_spares (h.spares kind hs)

theorem Within.not_spares {kind : CallKind} {e : IoError} (h : o.Within run)
    (he : run.refusal? kind = some e) : ¬ o.refusals.Spares kind := by
  intro hs
  rw [h.refusal? hs] at he
  cases he

theorem Within.hinders {kind : CallKind} {e : IoError} (h : o.Within run)
    (hk : kind = .seek ∨ kind = .readHead) (he : run.refusal? kind = some e) : o.Hinders := by
  obtain rfl | rfl := hk
  · exact .inl (h.not_spares he)
  · exact .inr (h.not_spares he)

theorem Within.troubled {kind : CallKind} {e : IoError} (h : o.Within run)
    (he : run.refusal? kind = some e) : o.Troubled := .inl ⟨kind, h.not_spares he⟩

theorem Within.troubled_of_error? {kind : CallKind} {e : IoError} (h : o.Within run)
    (he : run.error? o.view kind = some e) (hne : e.errno ≠ .noEntry)
    (hdir : ∀ n, o.view.target ≠ .directory n) : o.Troubled := by
  cases hr : run.refusal? kind with
  | some e' => exact h.troubled hr
  | none =>
    rw [Run.error?_of_passed hr] at he
    unfold View.error? at he
    cases ht : o.view.target with
    | unreachable errno =>
      refine .inr ⟨errno, ht, ?_⟩
      have herrno : e.errno = errno := by
        cases kind <;> simp only [ht, Option.some.injEq, reduceCtorEq] at he <;> rw [← he]
      exact herrno ▸ hne
    | directory n => exact absurd ht (hdir n)
    | file n => cases kind <;> simp [ht] at he
    | unnameable why => cases kind <;> simp [ht] at he

end Occasion

namespace Work

variable {α : Type} {o : Occasion} {run : Run} {s : Stretch} {bytes chunk : Bytes}

/-- What work comes to is still within the poll. -/
theorem wp.within {w : Work α} {Q : α → Run → Prop} {E : Failure → Run → Prop} (h : wp w Q E run)
    (ht : Tame w run) (hi : o.Within run) : wp w (fun a run' => Q a run' ∧ o.Within run') E run :=
  (h.and (ht hi.pending)).mono (fun _ _ h => ⟨h.1, hi.works h.2⟩) fun _ _ h => h.1

/-- Work on a run that has strayed does not undo that. -/
theorem wp_strayed {w : Work α} (hw : Recalls w) (h : run.Strayed) :
    wp w (fun _ run' => run'.Strayed) (fun _ run' => run'.Strayed) run :=
  (hw run).mono (fun _ _ => h.mono) fun _ _ => h.mono

theorem wp_strays {w : Work α} (hw : Recalls w) (h : o.Strays run) :
    wp w (fun _ run' => o.Strays run') (fun _ run' => o.Strays run') run :=
  (wp_strayed hw h.strayed).mono (fun _ _ hs => ⟨hs, h.hinders⟩) fun _ _ hs => ⟨hs, h.hinders⟩

theorem wp_recordFailure_stops {Q : Unit → Run → Prop} {e : IoError}
    (hr : ∀ reason, run.reopens reason = s.reopens reason) (hl : run.lines <+: s.told bytes)
    (ht : o.Troubled)
    (hQ : Q () (run.failed e)) : wp (recordFailure e) Q (o.Stops s bytes) run := by
  refine wp_recordFailure (fun hlimit => ⟨.inl (.limit ht hlimit), fun reason => ?_, ?_⟩)
    fun _ => hQ
  · exact (Run.reopens_log_of_eq_none rfl reason).trans (hr reason)
  · rw [Run.failed, Run.lines_log_of_eq_none rfl]
    exact hl

/-! ## Reading on -/

end Work

/-- All that is there was read, or reading was refused. -/
def Run.Rests (run : Run) (o : Occasion) (bytes : Bytes) : Prop :=
  run.follower.failures = 0 ∧ run.follower.offset = bytes.length ∨
    0 < run.follower.failures ∧ ¬ o.refusals.Spares .readNext

namespace Work

variable {o : Occasion} {run : Run} {s : Stretch} {bytes chunk : Bytes}

theorem wp_readChunk_reads (hr : run.Reads s bytes) (hi : o.Within run)
    (hb : (o.view.data s.number).bytes = bytes) :
    wp (readChunk o.view)
      (fun chunk run' => run'.Holds s bytes chunk ∧ run'.follower.offset = run.follower.offset ∧
        (chunk = [] → run'.Rests o bytes))
      (o.Stops s bytes) run := by
  obtain ⟨h, hh, hn, ha⟩ := hr.handle
  simp only [List.length_nil, Nat.add_zero] at ha
  refine wp_readChunk hh (fun e he => ?_) fun _ => ?_
  · have hq := hr.asked .readNext
    refine wp_recordFailure_stops hq.reopens hq.lines_prefix (hi.troubled he)
      ⟨hq.failed e, rfl, fun _ => .inr ⟨?_, ?_⟩⟩
    · exact Nat.succ_pos _
    · exact hi.not_spares he
  · rw [hn, hb]
    have hread := ha.read_fst chunkSize
    have hafter := ha.read_snd chunkSize
    refine ⟨?_, rfl, fun hnil => .inl ⟨rfl, ?_⟩⟩
    · exact {
        handle := ⟨_, rfl, by rw [Handle.number_read, hn], hafter⟩
        identity := hr.identity
        head_prefix := hr.head_prefix
        head_length := hr.head_length
        start_le := hr.start_le
        offset_le := hr.offset_le
        chunk_prefix := hread ▸ List.take_prefix _ _
        tried := hr.tried
        pending := hr.pending
        lines := hr.lines
        reopens := hr.reopens }
    · -- nothing comes of a read of so many octets only at the end of the file
      have hend : bytes.drop run.follower.offset = [] := by
        rw [hread, List.take_eq_nil_iff] at hnil
        exact hnil.resolve_left (by decide)
      exact le_antisymm hr.offset_le (List.drop_eq_nil_iff.1 hend)

theorem wp_deliver_holds (h : run.Holds s bytes chunk) :
    wp (deliver o.take chunk)
      (fun _ run' => run'.Reads s bytes ∧ run'.follower.offset = run.follower.offset + chunk.length)
      (o.Stops s bytes) run := by
  refine wp_deliver
    (wp_deliverLines (fun before l f hbefore hf => ⟨.inl (.line hf), fun reason => ?_, ?_⟩)
    ⟨h.taken, rfl⟩)
  · rw [Run.reopens_log_of_eq_none rfl, Run.reopens_logLines]
    exact h.reopens reason
  · refine List.IsPrefix.trans ?_ h.taken.lines_prefix
    rw [Run.lines_log_of_eq_none rfl, Run.lines_logLines, Run.lines_logLines]
    exact (List.prefix_append_right_inj _).2
      (((List.prefix_append before [l]).trans hbefore).map lineText)

/-- Reading on takes something over, or comes to rest. -/
theorem wp_readOn (hr : run.Reads s bytes) (hi : o.Within run)
    (hb : (o.view.data s.number).bytes = bytes) :
    wp (readOn o.view o.take)
      (fun waits run' => run'.Reads s bytes ∧
        if waits then run'.Rests o bytes else run.follower.offset < run'.follower.offset)
      (o.Stops s bytes) run := by
  unfold readOn
  rw [wp_bind]
  refine (wp_readChunk_reads hr hi hb).mono (fun chunk run₁ h₁ => ?_) fun _ _ h => h
  obtain ⟨hholds, hoff, hrests⟩ := h₁
  cases chunk with
  | nil => exact ⟨hholds, hrests rfl⟩
  | cons b rest =>
    show wp (deliver o.take (b :: rest) >>= fun _ => pure false) _ _ run₁
    rw [wp_bind]
    refine (wp_deliver_holds hholds).mono (fun _ run₂ h₂ => ?_) fun _ _ h => h
    obtain ⟨hreads, hoff'⟩ := h₂
    refine ⟨hreads, ?_⟩
    show run.follower.offset < run₂.follower.offset
    rw [hoff', hoff, List.length_cons]
    omega

end Work

/-! ## Checking the file -/

namespace Work

variable {o : Occasion} {run : Run} {s : Stretch} {bytes : Bytes} {E : Failure → Run → Prop}

theorem strayed_of_head {h : Handle} {e : IoError} (hs : run.refusal? .seek = none)
    (he : (atStart run h).refusal? .readHead = some e) :
    ((atStart run h).asked .readHead).Strayed := by
  obtain ⟨errno, hask, -⟩ := Option.map_eq_some_iff.1 he
  have hcalls : ((atStart run h).asked .readHead).calls =
      ⟨.readHead, ((atStart run h).refusals.ask .readHead).1⟩ ::
        ⟨.seek, (run.refusals.ask .seek).1⟩ :: run.calls := rfl
  refine ⟨errno, .inl ?_⟩
  rw [hcalls, hask, Option.map_eq_none_iff.1 hs]
  exact List.infix_append [] _ run.calls

theorem strayed_of_back {view : View} {h : Handle} {e : IoError} (hs : run.refusal? .seek = none)
    (hr : (atStart run h).refusal? .readHead = none)
    (he : (behindHead run view h).refusal? .seek = some e) :
    ((behindHead run view h).asked .seek).Strayed := by
  obtain ⟨errno, hask, -⟩ := Option.map_eq_some_iff.1 he
  have hcalls : ((behindHead run view h).asked .seek).calls =
      ⟨.seek, ((behindHead run view h).refusals.ask .seek).1⟩ ::
        ⟨.readHead, ((atStart run h).refusals.ask .readHead).1⟩ ::
          ⟨.seek, (run.refusals.ask .seek).1⟩ :: run.calls := rfl
  refine ⟨errno, .inr ?_⟩
  rw [hcalls, hask, Option.map_eq_none_iff.1 hs, Option.map_eq_none_iff.1 hr]
  exact List.infix_append [] _ run.calls

/-- A look at how the file begins comes back to the offset, or is refused; then it may have
strayed. -/
theorem wp_readHead_reads (hr : run.Reads s bytes) (hi : o.Within run)
    (hb : (o.view.data s.number).bytes = bytes) :
    wp (readHead o.view)
      (fun found run' => run'.events = run.events ∧
        ((found = .ok (bytes.take headSize) ∧ run'.Reads s bytes ∧
            run'.follower.offset = run.follower.offset) ∨
          ∃ e, found = .error e ∧ o.Hinders ∧
            ((run'.Reads s bytes ∧ run'.follower.offset = run.follower.offset) ∨ o.Strays run')))
      E run := by
  obtain ⟨h, hh, hn, ha⟩ := hr.handle
  have hstart : (h.seek 0).At bytes 0 := ha.seek 0
  have hread : ((h.seek 0).read bytes headSize).1 = bytes.take headSize := hstart.read_fst headSize
  have hafter := hstart.read_snd headSize
  have hi₁ : o.Within (atStart run h) := ⟨hi.pending, (hi.asked .seek).spares⟩
  have hi₂ : o.Within (behindHead run o.view h) := ⟨hi.pending, (hi₁.asked .readHead).spares⟩
  refine wp_readHead hh (fun e he => ?_) (fun hs e he => ?_) (fun hs hk e he => ?_)
    fun hs hk hback => ?_
  · have hhinders := hi.hinders (.inl rfl) he
    exact ⟨rfl, .inr ⟨e, rfl, hhinders, .inl ⟨hr.asked .seek, rfl⟩⟩⟩
  · have hhinders := hi₁.hinders (.inr rfl) he
    exact ⟨rfl, .inr ⟨e, rfl, hhinders, .inr ⟨strayed_of_head hs he, hhinders⟩⟩⟩
  · have hhinders := hi₂.hinders (.inl rfl) he
    exact ⟨rfl, .inr ⟨e, rfl, hhinders, .inr ⟨strayed_of_back hs hk he, hhinders⟩⟩⟩
  · rw [hn, hb, hread]
    refine ⟨rfl, .inl ⟨rfl, ?_, rfl⟩⟩
    exact {
      handle := ⟨_, rfl, by rw [Handle.number_seek, Handle.number_read, Handle.number_seek, hn],
        hafter.seek _⟩
      identity := hr.identity
      head_prefix := hr.head_prefix
      head_length := hr.head_length
      start_le := hr.start_le
      offset_le := hr.offset_le
      chunk_prefix := List.nil_prefix
      tried := hr.tried
      pending := hr.pending
      lines := hr.lines
      reopens := hr.reopens }

/-- A check that finds the same file, or none, lets reading go on, unless it strays. -/
theorem wp_checkRotation_same (hr : run.Reads s bytes) (hi : o.Within run)
    (hb : (o.view.data s.number).bytes = bytes)
    (hpath : o.view.target = .file s.number ∨ ∃ e, o.view.target = .unreachable e) :
    wp (checkRotation o.view o.take)
      (fun done run' => done = false ∧
        ((run'.Reads s bytes ∧ run'.follower.offset = run.follower.offset) ∨ o.Strays run'))
      (o.Stops s bytes) run := by
  have hq : (run.asked .stat).Reads s bytes := hr.asked .stat
  have hnumber {n : Nat} (hn : o.view.number? = some n) : n = s.number := by
    obtain ht | ⟨e, ht⟩ := hpath
    · exact Option.some.inj (hn.symm.trans (View.number?_of_file ht))
    · rw [View.number?_of_unreachable ht] at hn
      cases hn
  refine wp_checkRotation (fun _ _ _ => ?_) (fun e he hne => ?_) (fun why hwhy _ => ?_)
    (fun n hn _ hother => ?_) (fun _ _ _ _ _ _ => ?_) fun n hn _ _ _ => ?_
  · exact ⟨rfl, .inl ⟨hq, rfl⟩⟩
  · have htroubled := hi.troubled_of_error? he hne fun n ht => by simp [ht] at hpath
    exact wp_recordFailure_stops hq.reopens hq.lines_prefix htroubled ⟨rfl, .inl ⟨hq.failed e, rfl⟩⟩
  · simp [hwhy] at hpath
  · exact absurd (hnumber hn ▸ hr.identity) hother
  · exact ⟨rfl, .inl ⟨hq, rfl⟩⟩
  · obtain rfl := hnumber hn
    refine (wp_readHead_reads hq (hi.asked .stat) hb).mono (fun found run₁ h₁ => ?_) fun _ _ h => h
    obtain ⟨hevents, ⟨rfl, hreads, hoff⟩ | ⟨e, rfl, hhinders, hleft⟩⟩ := h₁
    · -- what was there before is still there, so the head that was remembered is still how the
      -- file begins
      have hsame : (run.asked .stat).follower.offset ≤ (o.view.data s.number).bytes.length ∧
          (run.asked .stat).follower.head <+: bytes.take headSize := by
        rw [hb, List.prefix_take_iff]
        exact ⟨hq.offset_le, hq.head_prefix, hq.head_length⟩
      refine ⟨nofun, fun head hhead _ => ?_, fun head hhead hcut => ?_⟩
      · obtain rfl := Except.ok.inj hhead
        obtain ⟨h, hh, hn', ha⟩ := hreads.handle
        have hf : run₁.follower.handle = some h := hh
        have hput := hreads.put hn' ha (List.take_prefix headSize bytes) (List.length_take_le _ _)
          (o.view.data s.number).stamp run₁.follower.failures
        rw [← hf] at hput
        exact ⟨rfl, .inl ⟨hput, hoff⟩⟩
      · obtain rfl := Except.ok.inj hhead
        exact absurd hsame hcut
    · refine ⟨fun e' he' => ?_, nofun, nofun⟩
      obtain rfl := Except.error.inj he'
      have hreopens (reason : Reopening) : run₁.reopens reason = s.reopens reason :=
        (Run.reopens_congr hevents reason).trans (hq.reopens reason)
      have hlines : run₁.lines <+: s.told bytes := by
        rw [Run.lines, hevents]
        exact hq.lines_prefix
      refine wp_recordFailure_stops hreopens hlines hhinders.troubled ⟨rfl, ?_⟩
      obtain ⟨hreads, hoff⟩ | hstrays := hleft
      · exact .inl ⟨hreads.failed e, hoff⟩
      · exact .inr ⟨hstrays.strayed, hstrays.hinders⟩

end Work

/-! ## Opening -/

namespace Run

variable {run : Run} {earlier : List Text} {reopens : Reopening → Nat}

/-- The next attempt to open finds a file, and what it takes to begin with it is not refused. -/
structure Opens (run : Run) (view : View) (n : Nat) : Prop where
  target : view.target = .file n
  openFile : run.refusal? .openFile = none
  readHead : run.refusal? .readHead = none
  seek : run.refusal? .seek = none

theorem Opens.error?_eq_none {view : View} {n : Nat} (h : run.Opens view n) :
    run.error? view .openFile = none := by
  rw [error?_of_passed h.openFile, View.error?, h.target]

theorem Waits.failed (h : run.Waits earlier reopens) (e : IoError) :
    (run.failed e).Waits earlier reopens := by
  have hput : (run.put { run.follower with failures := run.follower.failures + 1 }).Waits
      earlier reopens :=
    ⟨h.handle, h.pending, h.lines, h.reopens⟩
  exact hput.log rfl rfl

theorem Waits.lines_prefix {s : Stretch} (h : run.Waits s.earlier s.reopens) (bytes : Bytes) :
    run.lines <+: s.told bytes := by
  rw [h.lines]
  exact List.prefix_append _ _

/-- A file just opened is read from where its handle stands. -/
theorem Waits.opened (hq : run.Waits earlier reopens) {h : Handle} {n start : Nat} {bytes : Bytes}
    (hn : h.number = n) (ha : h.At bytes start) (hle : start ≤ bytes.length) (stamp : Stamp)
    (failures : Nat) :
    (run.put { run.follower with
      handle := some h, identity := some n, stamp, head := bytes.take headSize, offset := h.position
      pending := [], failures, firstOpen := false }).Reads ⟨n, start, earlier, reopens⟩ bytes := by
  obtain rfl := ha.position_eq
  have hspan : (bytes.take h.position).drop h.position = [] :=
    List.drop_eq_nil_of_le (List.length_take_le _ _)
  exact {
    handle := ⟨h, rfl, hn, ha⟩
    identity := rfl
    head_prefix := List.take_prefix _ _
    head_length := List.length_take_le _ _
    start_le := le_rfl
    offset_le := hle
    chunk_prefix := List.nil_prefix
    tried := rfl
    pending := by
      show [] = Lines.unfinished ((bytes.take h.position).drop h.position)
      rw [hspan, Lines.unfinished_nil]
    lines := by
      show run.lines =
        earlier ++ (Lines.complete ((bytes.take h.position).drop h.position)).map lineText
      rw [hspan, Lines.complete_nil, List.map_nil, List.append_nil, hq.lines]
    reopens := hq.reopens }

end Run

namespace Work

variable {o : Occasion} {run : Run} {s : Stretch}

/-- Where reading begins in a file just opened. -/
theorem standing_at (data : FileData) (n : Nat) (toEnd : Bool) :
    (standing data n toEnd).number = n ∧
      (standing data n toEnd).At data.bytes (if toEnd then data.bytes.length else 0) := by
  have hafter := (Handle.at_opened n data.bytes).read_snd headSize
  have hnumber : ((Handle.opened n).read data.bytes headSize).2.number = n := by
    rw [Handle.number_read, Handle.number_opened]
  unfold standing
  generalize ((Handle.opened n).read data.bytes headSize).2 = h at hnumber hafter
  cases toEnd with
  | true => exact ⟨hnumber, Handle.at_seekEnd _ _ _⟩
  | false => exact ⟨(Handle.number_seek _ 0).trans hnumber, hafter.seek 0⟩

/-- A file that could not be prepared leaves the follower waiting. -/
theorem wp_abandon_waits {bytes : Bytes} {e : IoError} (hq : run.Waits s.earlier s.reopens)
    (hhinders : o.Hinders) :
    wp (abandon e) (fun opened run' => opened = false ∧ run'.Waits s.earlier s.reopens)
      (o.Stops s bytes) run := by
  have hq' := hq.asked .close
  refine wp_abandon (fun _ _ => ⟨.inr hhinders, hq'.reopens, hq'.lines_prefix bytes⟩) fun _ => ?_
  exact wp_recordFailure_stops hq'.reopens (hq'.lines_prefix bytes) hhinders.troubled
    ⟨rfl, hq'.failed e⟩

theorem wp_prepare_waits (hq : run.Waits s.earlier s.reopens) (hi : o.Within run) (toEnd : Bool)
    (hs : run.refusal? .readHead = none → run.refusal? .seek = none →
      s.start = if toEnd then (o.view.data s.number).bytes.length else 0) :
    wp (prepare o.view s.number toEnd)
      (fun opened run' =>
        if opened then (run.refusal? .readHead = none ∧ run.refusal? .seek = none) ∧
          (run'.put { run'.follower with firstOpen := false }).Reads s (o.view.data s.number).bytes
        else ¬ (run.refusal? .readHead = none ∧ run.refusal? .seek = none) ∧
        run'.Waits s.earlier s.reopens)
      (o.Stops s (o.view.data s.number).bytes) run := by
  have hq₂ : ((run.asked .readHead).asked .seek).Waits s.earlier s.reopens := (hq.asked _).asked _
  have hsame : (run.asked .readHead).refusal? .seek = run.refusal? .seek :=
    Run.refusal?_asked_of_ne nofun
  refine wp_prepare (fun e he => ?_) (fun _ e he => ?_) fun hread hseek => ?_
  · have hnot : ¬ (run.refusal? .readHead = none ∧ run.refusal? .seek = none) := by simp [he]
    refine (wp_abandon_waits (hq.asked _) (hi.hinders (.inr rfl) he)).mono (fun opened run' h => ?_)
      fun _ _ h => h
    obtain ⟨rfl, hwaits⟩ := h
    exact ⟨hnot, hwaits⟩
  · have hnot : ¬ (run.refusal? .readHead = none ∧ run.refusal? .seek = none) := by
      simp [← hsame, he]
    refine (wp_abandon_waits hq₂ ((hi.asked _).hinders (.inl rfl) he)).mono
      (fun opened run' h => ?_) fun _ _ h => h
    obtain ⟨rfl, hwaits⟩ := h
    exact ⟨hnot, hwaits⟩
  · rw [hsame] at hseek
    obtain ⟨hn, ha⟩ := standing_at (o.view.data s.number) s.number toEnd
    rw [← hs hread hseek] at ha
    have hle : s.start ≤ (o.view.data s.number).bytes.length := by
      rw [hs hread hseek]
      cases toEnd with
      | true => exact le_rfl
      | false => exact Nat.zero_le _
    have hhead : ((Handle.opened s.number).read (o.view.data s.number).bytes headSize).1 =
        (o.view.data s.number).bytes.take headSize :=
      (Handle.at_opened s.number _).read_fst headSize
    refine ⟨⟨hread, hseek⟩, ?_⟩
    unfold opening
    rw [hhead]
    exact (hq₂.opened hn ha hle (o.view.data s.number).stamp 0).log rfl rfl

/-- An attempt to open finds a file and begins to read it, or leaves the follower waiting. -/
theorem wp_openFile_waits (hq : run.Waits s.earlier s.reopens) (hi : o.Within run)
    (hpath : o.view.target = .file s.number ∨ ∃ e, o.view.target = .unreachable e) (toEnd : Bool)
    (hs : run.Opens o.view s.number → s.start =
      if toEnd then (o.view.data s.number).bytes.length else 0) :
    wp (openFile o.view toEnd)
      (fun opened run' =>
        if opened then run.Opens o.view s.number ∧
          (run'.put { run'.follower with firstOpen := false }).Reads s (o.view.data s.number).bytes
        else ¬ run.Opens o.view s.number ∧ run'.Waits s.earlier s.reopens)
      (o.Stops s (o.view.data s.number).bytes) run := by
  have hq₁ : (run.asked .openFile).Waits s.earlier s.reopens := hq.asked .openFile
  have hnot {e : IoError} (he : run.error? o.view .openFile = some e) :
      ¬ run.Opens o.view s.number := by
    intro h
    rw [h.error?_eq_none] at he
    cases he
  refine wp_openFile (fun e he _ => ?_) (fun e he hne => ?_) (fun why hwhy _ => ?_)
    fun m hm hnone => ?_
  · exact ⟨hnot he, hq₁.log rfl rfl⟩
  · have htroubled := hi.troubled_of_error? he hne fun m ht => by simp [ht] at hpath
    exact wp_recordFailure_stops hq₁.reopens (hq₁.lines_prefix _) htroubled ⟨hnot he, hq₁.failed e⟩
  · simp [hwhy] at hpath
  · obtain rfl : m = s.number := by
      obtain ht | ⟨e, ht⟩ := hpath <;> rw [hm] at ht <;> cases ht
      rfl
    have hopenFile : run.refusal? .openFile = none := (Option.or_eq_none_iff.1 hnone).1
    have hread : (run.asked .openFile).refusal? .readHead = run.refusal? .readHead :=
      Run.refusal?_asked_of_ne nofun
    have hseek : (run.asked .openFile).refusal? .seek = run.refusal? .seek :=
      Run.refusal?_asked_of_ne nofun
    refine (wp_prepare_waits hq₁ (hi.asked .openFile) toEnd fun hr hk => ?_).mono
      (fun opened run' h => ?_) fun _ _ h => h
    · exact hs ⟨hm, hopenFile, hread ▸ hr, hseek ▸ hk⟩
    rw [hread, hseek] at h
    cases opened with
    | true =>
      obtain ⟨⟨hr, hk⟩, hreads⟩ := h
      exact ⟨⟨hm, hopenFile, hr, hk⟩, hreads⟩
    | false =>
      obtain ⟨hno, hwaits⟩ := h
      exact ⟨fun hopens => hno ⟨hopens.readHead, hopens.seek⟩, hwaits⟩

/-! ## Turns -/

/-- A turn with the file open takes something over, or comes to rest, or strays. -/
theorem wp_turn_reads {bytes : Bytes} (hr : run.Reads s bytes) (hi : o.Within run)
    (hb : (o.view.data s.number).bytes = bytes)
    (hpath : o.view.target = .file s.number ∨ ∃ e, o.view.target = .unreachable e) :
    wp (turn o.view o.take)
      (fun waits run' => ((run'.Reads s bytes ∧ o.Within run') ∧
          if waits then run'.Rests o bytes else run.follower.offset < run'.follower.offset) ∨
          o.Strays run')
      (fun f run' => o.Stops s bytes f run' ∨ o.Strays run') run := by
  refine wp_turn (fun hclosed => ?_) fun _ _ => ?_
  · obtain ⟨h, hh, -, -⟩ := hr.handle
    rw [hclosed] at hh
    cases hh
  refine ((wp_checkRotation_same hr hi hb hpath).within (tame_checkRotation o.take) hi).mono
    (fun done run₁ h₁ => ?_) fun _ _ h => .inl h
  obtain ⟨⟨rfl, ⟨hreads, hoff⟩ | hstrays⟩, hi₁⟩ := h₁
  · refine ((wp_readOn hreads hi₁ hb).within (tame_readOn o.take) hi₁).mono
      (fun waits run₂ h₂ => ?_) fun _ _ h => .inl h
    obtain ⟨⟨hreads₂, hend⟩, hi₂⟩ := h₂
    rw [hoff] at hend
    exact .inl ⟨⟨hreads₂, hi₂⟩, hend⟩
  · exact (wp_strays (pervades_recalls o.take).readOn hstrays).mono (fun _ _ h => .inr h)
      fun _ _ h => .inr h

/-- A turn without a file begins to read the file that is found, or waits for one. -/
theorem wp_turn_waits (hq : run.Waits s.earlier s.reopens) (hi : o.Within run)
    (hpath : o.view.target = .file s.number ∨ ∃ e, o.view.target = .unreachable e)
    (hs : run.Opens o.view s.number → s.start =
      if run.follower.firstOpen && !run.follower.source.fromStart then
        (o.view.data s.number).bytes.length else 0) :
    wp (turn o.view o.take)
      (fun waits run' => o.Within run' ∧
        ((run.Opens o.view s.number ∧ run'.Reads s (o.view.data s.number).bytes ∧
            (waits → run'.Rests o (o.view.data s.number).bytes)) ∨
          (waits = true ∧ ¬ run.Opens o.view s.number ∧ run'.Waits s.earlier s.reopens ∧
            run'.follower.firstOpen = false)))
      (o.Stops s (o.view.data s.number).bytes) run := by
  refine wp_turn (fun _ => ?_) fun h hh => ?_
  swap
  · rw [hq.handle] at hh
    cases hh
  refine ((wp_openFile_waits hq hi hpath _ hs).within (tame_openFile _) hi).mono
    (fun opened run₁ h₁ => ?_) fun _ _ h => h
  obtain ⟨h₁, hi₁⟩ := h₁
  have hi₂ : o.Within (run₁.put { run₁.follower with firstOpen := false }) :=
    ⟨hi₁.pending, hi₁.spares⟩
  cases opened with
  | true =>
    obtain ⟨hopens, hreads⟩ := h₁
    refine ((wp_readOn hreads hi₂ rfl).within (tame_readOn o.take) hi₂).mono
      (fun waits run₂ h₂ => ?_) fun _ _ h => h
    obtain ⟨⟨hreads₂, hend⟩, hi₃⟩ := h₂
    refine ⟨hi₃, .inl ⟨hopens, hreads₂, fun hw => ?_⟩⟩
    rw [if_pos hw] at hend
    exact hend
  | false =>
    obtain ⟨hno, hwaits⟩ := h₁
    exact ⟨hi₂, .inr ⟨rfl, hno, ⟨hwaits.handle, hwaits.pending, hwaits.lines, hwaits.reopens⟩, rfl⟩⟩

end Work

/-! ## Polls -/

namespace Run

variable {run : Run} {s : Stretch} {bytes : Bytes} {earlier : List Text} {reopens : Reopening → Nat}

theorem Waits.schedule (h : run.Waits earlier reopens) (rs : Refusals) :
    Run.Waits { run with refusals := rs } earlier reopens :=
  ⟨h.handle, h.pending, h.lines, h.reopens⟩

theorem Reads.notMem_pending (h : run.Reads s bytes) : 10 ∉ run.follower.pending := by
  rw [h.pending]
  exact Lines.notMem_unfinished _

/-- What may still come of the open file is what lies behind the offset. -/
theorem Reads.remaining_eq {view : View} (h : run.Reads s bytes)
    (hb : (view.data s.number).bytes = bytes) :
    Work.remaining view run.follower = bytes.length - run.follower.offset := by
  obtain ⟨handle, hh, hn, ha⟩ := h.handle
  rw [Work.remaining_eq_left hh, hn, hb, ← Handle.length_rest, ha.rest_eq,
    List.length_drop, List.length_nil, Nat.add_zero]

end Run

namespace Occasion

/-- The file is at the path, or none can be reached, and the file can be prepared for reading. -/
structure Serves (o : Occasion) (n : Nat) : Prop where
  path : o.view.target = .file n ∨ ∃ e, o.view.target = .unreachable e
  seek : o.refusals.Spares .seek
  readHead : o.refusals.Spares .readHead

theorem Serves.not_hinders {o : Occasion} {n : Nat} (h : o.Serves n) : ¬ o.Hinders := by
  rintro (hseek | hhead)
  · exact hseek h.seek
  · exact hhead h.readHead

theorem Stops.breaks {o : Occasion} {s : Stretch} {bytes : Bytes} {f : Failure}
    {run : Run} {n : Nat}
    (h : o.Stops s bytes f run) (ho : o.Serves n) : o.Breaks f run :=
  h.cause.resolve_right ho.not_hinders

/-- An attempt to open on the occasion finds a file. -/
def Finds (o : Occasion)
    (n : Nat) : Prop := (o.refusals.ask .openFile).1 = none ∧ o.view.target = .file n

end Occasion

namespace Follower

theorem remaining_lt_turnBound (view : View) (run : Run) :
    Work.remaining view run.follower < turnBound view run := by
  unfold turnBound
  omega

theorem length_lt_turnBound {view : View} {n : Nat} (h : view.target = .file n) (run : Run) :
    (view.data n).bytes.length + 2 < turnBound view run := by
  have hthere : view.there = (view.data n).bytes := by
    rw [View.there, View.number?_of_file h]
  have htwice : 2 * (Handle.blockSize + view.there.length + 1) ≤
      (3 * run.refusals.looks + 2) * (Handle.blockSize + view.there.length + 1) :=
    Nat.mul_le_mul_right _ (Nat.le_add_left 2 _)
  rw [turnBound, ← hthere]
  omega

variable {o : Occasion} {run : Run} {s : Stretch} {bytes : Bytes} {n : Nat}

theorem turns_reads {fuel : Nat} (hr : run.Reads s bytes) (hi : o.Within run)
    (ho : o.Serves s.number)
    (hb : (o.view.data s.number).bytes = bytes)
    (hfuel : bytes.length - run.follower.offset < fuel) :
    (turns o.view o.take fuel run).Ends (fun run' => run'.Reads s bytes ∧ run'.Rests o bytes)
      (o.Stops s bytes) := by
  refine turns_ends (I := fun run => run.Reads s bytes ∧ o.Within run)
    (fun run => bytes.length - run.follower.offset) (fun run h => ?_) ⟨hr, hi⟩ hfuel
  refine (Work.wp_turn_reads h.1 h.2 hb ho.path).mono (fun waits run' h' => ?_)
    fun f run' h' => h'.resolve_right fun hstrays => ho.not_hinders hstrays.hinders
  obtain ⟨hI, hend⟩ := h'.resolve_right fun hstrays => ho.not_hinders hstrays.hinders
  cases waits with
  | true => exact ⟨hI.1, hend⟩
  | false =>
    have hless : run.follower.offset < run'.follower.offset := hend
    have hle := hI.1.offset_le
    refine ⟨hI, ?_⟩
    show bytes.length - run'.follower.offset < bytes.length - run.follower.offset
    omega

/-- A poll that meets the file it has open reads all that has been added to it. -/
theorem meet_reads (hr : run.Reads s bytes) (ho : o.Serves s.number)
    (hgrow : bytes <+: (o.view.data s.number).bytes) :
    (meet run o).Ends
      (fun run' => run'.Reads s (o.view.data s.number).bytes ∧
        run'.Rests o (o.view.data s.number).bytes)
      (o.Stops s (o.view.data s.number).bytes) := by
  have hr' : Run.Reads { run with refusals := o.refusals } s (o.view.data s.number).bytes :=
    (hr.mono hgrow).schedule o.refusals
  refine turns_reads hr' (o.within_schedule hr.notMem_pending) ho rfl ?_
  rw [← hr'.remaining_eq rfl]
  exact remaining_lt_turnBound _ _

theorem turns_waits {fuel : Nat} (hq : run.Waits s.earlier s.reopens) (hi : o.Within run)
    (ho : o.Serves s.number)
    (hs : run.Opens o.view s.number → s.start =
      if run.follower.firstOpen && !run.follower.source.fromStart then
        (o.view.data s.number).bytes.length else 0)
    (hfuel : o.view.target = .file s.number → (o.view.data s.number).bytes.length < fuel) :
    (turns o.view o.take (fuel + 1) run).Ends
      (fun run' =>
        (run.Opens o.view s.number ∧ run'.Reads s (o.view.data s.number).bytes ∧
          run'.Rests o (o.view.data s.number).bytes) ∨
        (¬ run.Opens o.view s.number ∧ run'.Waits s.earlier s.reopens ∧
          run'.follower.firstOpen = false))
      (o.Stops s (o.view.data s.number).bytes) := by
  refine turns_succ_ends
    ((Work.wp_turn_waits hq hi ho.path hs).mono (fun waits run' h => ?_) fun _ _ h => h)
  rcases h with ⟨hi', ⟨hopens, hreads, hrests⟩ | ⟨rfl, hno, hwaits, hfirst⟩⟩
  · cases waits with
    | true => exact .inl ⟨hopens, hreads, hrests rfl⟩
    | false =>
      have hlong := hfuel hopens.target
      rw [if_neg Bool.false_ne_true]
      refine (turns_reads hreads hi' ho rfl ?_).mono (fun run'' h => .inl ⟨hopens, h⟩)
        fun _ _ h => h
      omega
  · exact .inr ⟨hno, hwaits, hfirst⟩

/-- A poll without a file reads all of the file that is found, or goes on waiting. -/
theorem meet_waits (hq : run.Waits s.earlier s.reopens) (ho : o.Serves s.number)
    (hs : o.Finds s.number → s.start =
      if run.follower.firstOpen && !run.follower.source.fromStart then
        (o.view.data s.number).bytes.length else 0) :
    (meet run o).Ends
      (fun run' =>
        (o.Finds s.number ∧ run'.Reads s (o.view.data s.number).bytes ∧
          run'.Rests o (o.view.data s.number).bytes) ∨
        (¬ o.Finds s.number ∧ run'.Waits s.earlier s.reopens ∧ run'.follower.firstOpen = false))
      (o.Stops s (o.view.data s.number).bytes) := by
  have hi : o.Within { run with refusals := o.refusals } := o.within_schedule hq.pending
  have hfinds : Run.Opens { run with refusals := o.refusals } o.view s.number ↔
      o.Finds s.number := by
    refine ⟨fun h => ⟨Option.map_eq_none_iff.1 h.openFile, h.target⟩, fun h => ?_⟩
    exact ⟨h.2, Option.map_eq_none_iff.2 h.1, hi.refusal? ho.readHead, hi.refusal? ho.seek⟩
  obtain ⟨fuel, hfuel⟩ : ∃ fuel, turnBound o.view { run with refusals := o.refusals } = fuel + 1 :=
    Nat.exists_eq_add_one_of_ne_zero
      (Nat.ne_of_gt (Nat.zero_lt_of_lt (remaining_lt_turnBound o.view _)))
  show (turns o.view o.take (turnBound o.view { run with refusals := o.refusals })
    { run with refusals := o.refusals }).Ends _ _
  rw [hfuel]
  have hlong (ht : o.view.target = .file s.number) :
      (o.view.data s.number).bytes.length < fuel := by
    have := length_lt_turnBound ht { run with refusals := o.refusals }
    omega
  rw [← hfinds] at hs ⊢
  exact turns_waits (hq.schedule _) hi ho hs hlong

end Follower

end LogRelay
