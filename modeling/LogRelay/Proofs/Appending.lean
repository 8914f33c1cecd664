import LogRelay.Proofs.Reading

/-!
# Files that are only appended to

The main result is `follow_appends`: as long as a file is only appended to, every wait finds its
complete lines delivered, each once and in their order, up to the offset, and the rest of the octets
before the offset pending.  How the octets came into the file, where the reads cut them and which
calls were refused in between makes no difference, and reading is never begun again.
-/

namespace LogRelay

/-! ## Files that grow -/

/-- A file holds on each occasion what it held on the one before, with octets added. -/
def Grows (n : Nat) (os : List Occasion) : Prop :=
  os.Pairwise fun o o' => (o.view.data n).bytes <+: (o'.view.data n).bytes

/-- A file is at the path or none can be reached, and once the file is there it is only appended
to. -/
structure Appends (n : Nat) (os : List Occasion) : Prop where
  serves : ∀ o ∈ os, o.Serves n
  grows : ∀ o rest, o :: rest <:+ os → o.view.target = .file n → Grows n (o :: rest)

theorem Appends.tail {n : Nat} {o : Occasion} {os : List Occasion} (h : Appends n (o :: os)) :
    Appends n os where
  serves p hp := h.serves p (List.mem_cons_of_mem o hp)
  grows p rest hsuffix := h.grows p rest (hsuffix.trans (List.suffix_cons o os))

/-! ## Where reading begins -/

/-- The file that an attempt to open finds. -/
def Occasion.found? (o : Occasion) : Option Nat :=
  match (o.refusals.ask .openFile).1, o.view.target with
  | none, .file n => some n
  | _, _ => none

/-- Where reading begins: behind the octets that the first attempt to open finds in the file, unless
these are to be read too. -/
def startPoint (source : Source) : List Occasion → Nat
  | [] => 0
  | o :: _ =>
    match o.found? with
    | some n => if source.fromStart then 0 else (o.view.data n).bytes.length
    | none => 0

theorem Occasion.found?_of_finds {o : Occasion} {n : Nat} (h : o.Finds n) : o.found? = some n := by
  unfold found?
  rw [h.1, h.2]

theorem Occasion.found?_eq_none {o : Occasion} {n : Nat} (h : ¬ o.Finds n) (ho : o.Serves n) :
    o.found? = none := by
  unfold found?
  split
  · next m hr ht =>
    rcases ho.path with hn | ⟨e, he⟩
    · exact absurd ⟨hr, hn⟩ h
    · rw [he] at ht
      cases ht
  · rfl

namespace Run

/-- No file is open, and the one that will be opened is read from the start of the stretch. -/
structure Awaits (run : Run) (s : Stretch) (os : List Occasion) : Prop extends
    run.Waits s.earlier s.reopens where
  start : s.start = if run.follower.firstOpen then startPoint run.follower.source os else 0

end Run

namespace Follower

variable {run : Run} {s : Stretch} {bytes : Bytes} {o : Occasion} {os : List Occasion}

theorem awaits_start (source : Source) (limit : Int) (n : Nat) (os : List Occasion) :
    (start source limit).Awaits ⟨n, startPoint source os, [], fun _ => 0⟩ os where
  handle := rfl
  pending := List.not_mem_nil
  lines := rfl
  reopens reason := Run.reopens_eq_count _ reason
  start := rfl

/-- A poll reads the file that it finds from where reading begins, or goes on waiting for it. -/
theorem meet_awaits (h : run.Awaits s (o :: os)) (ho : o.Serves s.number) :
    (meet run o).Ends
      (fun run' => (o.Finds s.number ∧ run'.Reads s (o.view.data s.number).bytes ∧
          run'.Rests o (o.view.data s.number).bytes) ∨
        (¬ o.Finds s.number ∧ run'.Awaits s os))
      (o.Stops s (o.view.data s.number).bytes) := by
  have hs (hfinds : o.Finds s.number) : s.start =
      if run.follower.firstOpen && !run.follower.source.fromStart then
        (o.view.data s.number).bytes.length else 0 := by
    rw [h.start, startPoint, Occasion.found?_of_finds hfinds]
    cases run.follower.firstOpen <;> cases run.follower.source.fromStart <;> rfl
  refine (meet_waits h.toWaits ho hs).mono (fun run' h' => ?_) fun _ _ h => h
  rcases h' with hopened | ⟨hno, hwaits, hfirst⟩
  · exact .inl hopened
  · have hstart : s.start = 0 := by
      rw [h.start, startPoint, Occasion.found?_eq_none hno ho]
      split <;> rfl
    exact .inr ⟨hno, hwaits, by rw [hfirst, hstart]; rfl⟩

/-! ## One poll after another -/

/-- Polls that meet a file with more and more octets read all that it holds on the last of them. -/
theorem follow_reads (h : run.Reads s (o.view.data s.number).bytes)
    (hrests : run.Rests o (o.view.data s.number).bytes) (ho : ∀ p ∈ os, p.Serves s.number)
    (hgrows : Grows s.number (o :: os)) :
    (follow run os).Ends
      (fun run' => run'.Reads s ((os.getLastD o).view.data s.number).bytes ∧
        run'.Rests (os.getLastD o) ((os.getLastD o).view.data s.number).bytes)
      (fun f run' => ∃ p ∈ os, p.Stops s (p.view.data s.number).bytes f run') := by
  induction os generalizing run o with
  | nil => exact follow_nil_ends ⟨h, hrests⟩
  | cons p os ih =>
    obtain ⟨hnext, hgrows'⟩ := List.pairwise_cons.1 hgrows
    have hmeet := meet_reads h (ho p List.mem_cons_self) (hnext p List.mem_cons_self)
    refine follow_cons_ends (hmeet.mono (fun run' h' => ?_)
      fun f run' h' => ⟨p, List.mem_cons_self, h'⟩)
    rw [List.getLastD_cons]
    refine (ih h'.1 h'.2 (fun q hq => ho q (List.mem_cons_of_mem p hq)) hgrows').mono (fun _ h => h)
      fun f run'' h'' => ?_
    exact h''.imp fun q hq => ⟨List.mem_cons_of_mem p hq.1, hq.2⟩

/-- A follower that waits for a file reads all that it holds on the last occasion, or waits on. -/
theorem follow_awaits (h : run.Awaits s os) (ha : Appends s.number os) :
    (follow run os).Ends
      (fun run' => run'.Awaits s [] ∨ ∃ o, os.getLast? = some o ∧
        run'.Reads s (o.view.data s.number).bytes ∧ run'.Rests o (o.view.data s.number).bytes)
      (fun f run' => ∃ o ∈ os, o.Stops s (o.view.data s.number).bytes f run') := by
  induction os generalizing run with
  | nil => exact follow_nil_ends (.inl h)
  | cons o os ih =>
    have hmeet := meet_awaits h (ha.serves o List.mem_cons_self)
    refine follow_cons_ends (hmeet.mono (fun run' h' => ?_)
      fun f run' h' => ⟨o, List.mem_cons_self, h'⟩)
    rcases h' with ⟨hfinds, hreads, hrests⟩ | ⟨-, hawaits⟩
    · have hgrows := ha.grows o os List.suffix_rfl hfinds.2
      refine (follow_reads hreads hrests ha.tail.serves hgrows).mono (fun run'' h'' => .inr ?_)
        fun f run'' h'' => ?_
      · rw [List.getLastD_eq_getLast?] at h''
        exact ⟨_, List.getLast?_cons, h''⟩
      · exact h''.imp fun p hp => ⟨List.mem_cons_of_mem o hp.1, hp.2⟩
    · refine (ih hawaits ha.tail).mono (fun run'' h'' => ?_) fun f run'' h'' => ?_
      · rcases h'' with hawaits' | ⟨p, hlast, hreads⟩
        · exact .inl hawaits'
        · refine .inr ⟨p, ?_, hreads⟩
          rw [List.getLast?_cons, hlast]
          rfl
      · exact h''.imp fun p hp => ⟨List.mem_cons_of_mem o hp.1, hp.2⟩

end Follower

/-! ## What is delivered -/

namespace Run

/-- What lies between the start and the offset has been dealt with: its complete lines are all that
was delivered, in their order, and what follows the last of them is pending. -/
structure Mirrors (run : Run) (start : Nat) (bytes : Bytes) : Prop where
  start_le : start ≤ run.follower.offset
  offset_le : run.follower.offset ≤ bytes.length
  lines : ∃ lines,
    Lines.Cut ((bytes.take run.follower.offset).drop start) lines run.follower.pending ∧
    run.lines = lines.map lineText

theorem Reads.mirrors {run : Run} {n start : Nat} {reopens : Reopening → Nat} {bytes : Bytes}
    (h : run.Reads ⟨n, start, [], reopens⟩ bytes) : run.Mirrors start bytes where
  start_le := h.start_le
  offset_le := h.offset_le
  lines := by
    refine ⟨_, ?_, h.lines⟩
    rw [h.pending]
    exact Lines.cut_complete_unfinished _

end Run

namespace Follower

/-- Every complete line of a file that is only appended to is delivered exactly once.  At every wait
with the file open, the complete lines from where reading began up to the offset are what was
delivered, the rest up to the offset is pending, and the offset is the size of the file unless
reading was refused.  Reading is never begun again.  The run fails only if a line is not taken or
too much was refused. -/
theorem follow_appends {source : Source} {limit : Int} {n : Nat} {os : List Occasion}
    (h : Appends n os) :
    (follow (start source limit) os).Ends
      (fun run => (∀ reason, run.reopens reason = 0) ∧ (run.follower.handle ≠ none →
        ∃ o, os.getLast? = some o ∧ run.Mirrors (startPoint source os) (o.view.data n).bytes ∧
          run.Rests o (o.view.data n).bytes))
      (fun f run => (∀ reason, run.reopens reason = 0) ∧ ∃ o ∈ os, o.Breaks f run) := by
  refine (follow_awaits (awaits_start source limit n os) h).mono (fun run h' => ?_)
    fun f run h' => ?_
  · rcases h' with hawaits | ⟨o, hlast, hreads, hrests⟩
    · exact ⟨hawaits.reopens, fun hopen => absurd hawaits.handle hopen⟩
    · exact ⟨hreads.reopens, fun _ => ⟨o, hlast, hreads.mirrors, hrests⟩⟩
  · obtain ⟨o, ho, hstops⟩ := h'
    exact ⟨hstops.reopens, o, ho, hstops.breaks (h.serves o ho)⟩

/-- A log that is missing, then there, and then longer while calls are refused. -/
def growingLog : List Occasion := [
  ⟨⟨.unreachable .noEntry, fun _ => ⟨[], 0, 0⟩⟩, .none, fun _ => none⟩,
  ⟨⟨.file 7, fun _ => ⟨[97, 10, 98], 1, 0⟩⟩, .none, fun _ => none⟩,
  ⟨⟨.file 7, fun _ => ⟨[97, 10, 98, 13, 10], 2, 0⟩⟩,
    (Refusals.none.set .stat ⟨0, 1, .permission⟩).set .readNext ⟨1, 1, .inputOutput⟩,
    fun _ => none⟩]

theorem appends_growingLog : Appends 7 growingLog := by
  have hgrows : Grows 7 growingLog := by
    unfold Grows
    decide
  refine ⟨fun o ho => ?_, fun o rest hsuffix _ => hgrows.sublist hsuffix.sublist⟩
  simp only [growingLog, List.mem_cons, List.not_mem_nil, or_false] at ho
  rcases ho with rfl | rfl | rfl
  · exact ⟨.inr ⟨.noEntry, rfl⟩, Refusals.spares_none _, Refusals.spares_none _⟩
  · exact ⟨.inl rfl, Refusals.spares_none _, Refusals.spares_none _⟩
  · exact ⟨.inl rfl, fun _ h => absurd h List.not_mem_nil, fun _ h => absurd h List.not_mem_nil⟩

theorem follow_growingLog : Appends 7 growingLog ∧
    (follow (start ⟨"app", ⟨.none, ["app.log"]⟩, false, false, .web⟩ 3) growingLog).Ends
      (fun run => (∀ reason, run.reopens reason = 0) ∧ (run.follower.handle ≠ none →
        ∃ o, growingLog.getLast? = some o ∧ run.Mirrors 0 (o.view.data 7).bytes ∧
          run.Rests o (o.view.data 7).bytes))
      (fun f run => (∀ reason, run.reopens reason = 0) ∧ ∃ o ∈ growingLog, o.Breaks f run) := by
  exact ⟨appends_growingLog, follow_appends appends_growingLog⟩

end Follower

end LogRelay
