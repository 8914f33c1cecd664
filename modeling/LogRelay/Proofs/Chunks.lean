import LogRelay.Proofs.Work

/-!
# Octets in chunks

How octets are cut into chunks leaves no trace: handing the chunks over one by one does to a run
what handing over all of them at once does (`Work.deliver_chunks`).  What is handed over acts on a
run by `Run.handed`, and one chunk after another by the chunks in a row (`Run.handed_append`).
-/

namespace LogRelay

namespace Run

variable {run : Run}

/-- The run after octets were taken over: the lines that they end are delivered, and what is behind
is kept. -/
def handed (run : Run) (octets : Bytes) : Run :=
  (run.put (Work.taking run.follower octets)).logLines
    (Lines.complete (run.follower.pending ++ octets))

theorem pending_handed (run : Run) (octets : Bytes) :
    (run.handed octets).follower.pending = Lines.unfinished (run.follower.pending ++ octets) := rfl

theorem notMem_pending_handed (run : Run) (octets : Bytes) :
    10 ∉ (run.handed octets).follower.pending :=
  Lines.notMem_unfinished _

theorem handed_nil (h : 10 ∉ run.follower.pending) : run.handed [] = run := by
  rw [handed, Work.taking, List.append_nil, Lines.complete_of_notMem h,
    Lines.unfinished_of_notMem h]
  rfl

theorem handed_append (run : Run) (a b : Bytes) :
    (run.handed a).handed b = run.handed (a ++ b) := by
  have hlines := Lines.complete_append (run.follower.pending ++ a) b
  have hrest := Lines.unfinished_append (run.follower.pending ++ a) b
  rw [List.append_assoc] at hlines hrest
  have htaken : Work.taking (run.handed a).follower b = Work.taking run.follower (a ++ b) := by
    rw [Work.taking, pending_handed, ← hrest]
    simp only [handed, follower_logLines, follower_put, Work.taking,
      List.length_append, Nat.add_assoc]
  have hwhole : run.handed (a ++ b) =
      (run.put (Work.taking run.follower (a ++ b))).logLines
      (Lines.complete (run.follower.pending ++ (a ++ b))) := rfl
  rw [handed, pending_handed, htaken, hwhole, hlines]
  simp only [handed, logLines, put, List.map_append, List.reverse_append, List.append_assoc]

end Run

namespace Work

variable {take : Taker} {run : Run}

theorem eq_ok_of_wp {w : Work Unit} {after : Run}
    (h : wp w (fun _ run' => run' = after) (fun _ _ => False) run) : w run = .ok () after := by
  unfold wp at h
  cases hw : w run with
  | ok u run' =>
    rw [hw] at h
    exact congrArg _ h
  | error f run' =>
    rw [hw] at h
    exact absurd h id

theorem deliver_eq {chunk : Bytes}
    (htake : ∀ l ∈ Lines.complete (run.follower.pending ++ chunk), take (lineText l) = none) :
    deliver take chunk run = .ok () (run.handed chunk) := by
  refine eq_ok_of_wp (wp_deliver (wp_deliverLines (fun before l f hl hf => ?_) rfl))
  have hmem : l ∈ Lines.complete (run.follower.pending ++ chunk) := hl.subset (by simp)
  rw [htake l hmem] at hf
  cases hf

/-- Chunks that are handed over one by one, by induction on them from any run without a line feed
pending. -/
theorem forM_deliver_eq {chunks : List Bytes} (hpending : 10 ∉ run.follower.pending)
    (htake : ∀ l ∈ Lines.complete (run.follower.pending ++ chunks.flatten),
      take (lineText l) = none) :
    chunks.forM (deliver take) run = .ok () (run.handed chunks.flatten) := by
  induction chunks generalizing run with
  | nil =>
    rw [List.flatten_nil, Run.handed_nil hpending]
    rfl
  | cons chunk chunks ih =>
    rw [List.flatten_cons, ← List.append_assoc, Lines.complete_append,
      List.forall_mem_append] at htake
    obtain ⟨hchunk, hchunks⟩ := htake
    have hfirst := deliver_eq hchunk
    have hothers := ih (run.notMem_pending_handed chunk) hchunks
    rw [List.flatten_cons, ← Run.handed_append, ← hothers]
    show EStateM.bind (deliver take chunk) (fun _ => chunks.forM (deliver take)) run = _
    unfold EStateM.bind
    rw [hfirst]

/-- As long as the lines are taken, chunks do to a run what they do in one piece: the lines that
what is pending and the chunks make up are delivered in their order, what is behind the last line
feed is pending, and the offset grows by the octets of the chunks.  Nothing else of the run
changes. -/
theorem deliver_chunks {chunks : List Bytes} (hpending : 10 ∉ run.follower.pending)
    (htake : ∀ l ∈ Lines.complete (run.follower.pending ++ chunks.flatten),
      take (lineText l) = none) :
    chunks.forM (deliver take) run = deliver take chunks.flatten run ∧
    ∃ lines rest, Lines.Cut (run.follower.pending ++ chunks.flatten) lines rest ∧
      deliver take chunks.flatten run = .ok () { run with
        follower := { run.follower with
          offset := run.follower.offset + chunks.flatten.length, pending := rest }
        events := (lines.map fun l => .line (lineText l)).reverse ++ run.events } := by
  have hwhole := deliver_eq htake
  refine ⟨(forM_deliver_eq hpending htake).trans hwhole.symm, ?_⟩
  exact ⟨_, _, Lines.cut_complete_unfinished _, hwhole⟩

/-- A run that holds the start of a line. -/
def startedRun : Run :=
  { follower :=
      { source := ⟨"app", ⟨.none, ["app.log"]⟩, true, false, .web⟩, limit := 3, pending := [97] },
    refusals := .none }

/-- A character of two octets and a line end of two, both cut in their middle. -/
def cutChunks : List Bytes := [[0xC3], [0xA9, 13], [], [10, 98]]

theorem deliver_cutChunks : 10 ∉ startedRun.follower.pending ∧
    ∃ after, cutChunks.forM (deliver fun _ => none) startedRun = .ok () after ∧
      after.events = [.line "aé"] ∧ after.follower.pending = [98] := by
  have hpending : 10 ∉ startedRun.follower.pending := by decide
  obtain ⟨hone, lines, rest, hcut, hall⟩ :=
    @deliver_chunks (fun _ => none) startedRun cutChunks hpending fun _ _ => rfl
  obtain ⟨rfl, rfl⟩ := Lines.cut_iff.1 hcut
  exact ⟨hpending, _, hone.trans hall, by rfl, by rfl⟩

end Work

end LogRelay
