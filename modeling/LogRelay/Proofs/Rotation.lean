import LogRelay.Proofs.Draining

/-!
# Files that follow one another

The main result is `follow_succession`: files that replace one another at a path are read one after
the other, each to its end, an unfinished last line included, before the next one is begun; nothing
of one file gets into a line of another.
-/

namespace LogRelay

/-! ## The poll that sees another file -/

namespace Run

variable {run : Run} {s : Stretch} {bytes : Bytes}

/-- What is pending and what lies behind the offset are read on as if nothing had been delivered of
the file. -/
theorem Reads.next_onward (h : run.Reads s bytes) (n : Nat) :
    (run.onward s.number).next (run.follower.pending ++ bytes.drop run.follower.offset) n =
      s.next bytes n := by
  have hlines : run.lines ++
      (Lines.all (run.follower.pending ++ bytes.drop run.follower.offset)).map lineText =
        s.earlier ++ (Lines.all (bytes.drop s.start)).map lineText := by
    rw [h.drop_start, Lines.all_append ((bytes.take run.follower.offset).drop s.start),
      h.pending, h.lines, List.map_append, List.append_assoc]
  have hreopens : run.reopens = s.reopens := funext h.reopens
  show Stretch.mk n 0 _ _ = Stretch.mk n 0 _ _
  rw [Run.onward, hreopens]
  exact congrArg (fun earlier => Stretch.mk n 0 earlier _) hlines

end Run

namespace Occasion

/-- No call is refused, and a file is at the path or nothing is. -/
structure Calm (o : Occasion) (n : Nat) : Prop where
  path : o.view.target = .file n ∨ o.view.target = .unreachable .noEntry
  spares : ∀ kind, o.refusals.Spares kind

variable {o : Occasion} {n : Nat}

theorem Calm.serves (h : o.Calm n) : o.Serves n where
  path := h.path.imp_right fun ht => ⟨_, ht⟩
  seek := h.spares .seek
  readHead := h.spares .readHead

/-- On a calm occasion a poll fails only if a line is not taken. -/
theorem Calm.exists_not_taken (h : o.Calm n) {f : Failure} {run : Run} (hb : o.Breaks f run) :
    ∃ t, o.take t = some f := by
  cases hb with
  | line ht => exact ⟨_, ht⟩
  | limit htrouble _ =>
    rcases htrouble with ⟨kind, hk⟩ | ⟨e, he, hne⟩
    · exact absurd (h.spares kind) hk
    · rcases h.path with ht | ht
      · rw [ht] at he
        cases he
      · rw [ht] at he
        cases he
        exact absurd rfl hne

theorem Calm.at_end {run : Run} {bytes : Bytes} (h : o.Calm n) (hr : run.Rests o bytes) :
    run.follower.offset = bytes.length := by
  rcases hr with ⟨-, hend⟩ | ⟨-, hrefused⟩
  · exact hend
  · exact absurd (h.spares .readNext) hrefused

end Occasion

namespace Follower

variable {o : Occasion} {run : Run} {s : Stretch} {bytes : Bytes} {n : Nat}

/-- A poll that meets another file reads the old one to its end, and then all of the new one. -/
theorem meet_rotates (hr : run.Reads s bytes) (ho : o.Calm n) (ht : o.view.target = .file n)
    (hn : n ≠ s.number) (hgrow : bytes <+: (o.view.data s.number).bytes) :
    (meet run o).Ends
      (fun run' => run'.Reads (s.next (o.view.data s.number).bytes n) (o.view.data n).bytes ∧
        run'.Rests o (o.view.data n).bytes)
      o.Breaks := by
  have hgrown := hr.mono hgrow
  obtain ⟨h, hh, hnumber, ha⟩ := hgrown.handle
  have hid : run.follower.identity = some h.number := hnumber ▸ hr.identity
  have hoctets : run.follower.pending ++ (o.view.data s.number).bytes.drop run.follower.offset =
      run.follower.pending ++ o.refusals.readable (h.rest (o.view.data h.number).bytes) := by
    rw [(ho.spares .readNext).readable_eq, hnumber, ha.rest_eq]
    rfl
  have hmeet := meet_leaves hh hr.notMem_pending hr.tried hid (fun kind _ => ho.spares kind) ht
    (hnumber ▸ hn) hoctets
  rw [hnumber, hgrown.next_onward] at hmeet
  exact hmeet.mono (fun _ h => h) fun _ _ h => h.1

end Follower

/-! ## Successions of files -/

/-- The polls from one that sees a file at the path up to the next one that sees another file. -/
structure Era where
  number : Nat
  first : Occasion
  later : List Occasion

namespace Era

def occasions (e : Era) : List Occasion := e.first :: e.later

/-- What the file holds on the last occasion of its era. -/
def content (e : Era) : Bytes := ((e.later.getLastD e.first).view.data e.number).bytes

end Era

/-- Files that appear at the path one after another, each only appended to until the next one is
seen. -/
inductive Succession : List Era → Prop
  | last (e : Era) (calm : ∀ o ∈ e.occasions, o.Calm e.number)
      (there : e.first.view.target = .file e.number)
      (grows : Grows e.number e.occasions) : Succession [e]
  | next (e e' : Era) (rest : List Era) (calm : ∀ o ∈ e.occasions, o.Calm e.number)
      (there : e.first.view.target = .file e.number) (other : e'.number ≠ e.number)
      (grows : Grows e.number (e.occasions ++ [e'.first])) (after : Succession (e' :: rest)) :
      Succession (e :: e' :: rest)

theorem Succession.first_calm {e : Era} {rest : List Era} (h : Succession (e :: rest)) :
    e.first.Calm e.number ∧ e.first.view.target = .file e.number := by
  cases h with
  | last _ calm there _ => exact ⟨calm _ List.mem_cons_self, there⟩
  | next _ _ _ calm there _ _ _ => exact ⟨calm _ List.mem_cons_self, there⟩

/-- The lines of files that follow one another, the first one from `start` on: all lines of those
that were left for another one, as they were when that was seen, and the complete lines of the last
one. -/
def successionLines (start : Nat) : List Era → List Bytes
  | [] => []
  | [e] => Lines.complete (e.content.drop start)
  | e :: e' :: rest =>
    Lines.all ((e'.first.view.data e.number).bytes.drop start) ++ successionLines 0 (e' :: rest)

/-- The files were read one after the other from the start of the stretch on, and the last one, read
in the stretch `t`, is open and read to its end. -/
structure Run.Succeeds (run : Run) (s : Stretch) (eras : List Era) (last : Era)
    (t : Stretch) : Prop where
  getLast : eras.getLast? = some last
  number : t.number = last.number
  start : t.start = if eras.length = 1 then s.start else 0
  reads : run.Reads t last.content
  at_end : run.follower.offset = last.content.length
  lines : run.lines = s.earlier ++ (successionLines s.start eras).map lineText
  reopens : ∀ reason, t.reopens reason =
    s.reopens reason + if Reopening.rotated = reason then eras.length - 1 else 0

theorem Run.Succeeds.cons {run : Run} {s t : Stretch} {e e' last : Era} {rest : List Era}
    (h : run.Succeeds (s.next (e'.first.view.data e.number).bytes e'.number) (e' :: rest) last t) :
    run.Succeeds s (e :: e' :: rest) last t where
  getLast := List.getLast?_cons_cons.trans h.getLast
  number := h.number
  start := by
    have hlong : (e :: e' :: rest).length ≠ 1 := by simp
    rw [h.start, if_neg hlong]
    exact ite_self 0
  reads := h.reads
  at_end := h.at_end
  lines := by
    rw [h.lines, successionLines, List.map_append, ← List.append_assoc]
    rfl
  reopens reason := by
    rw [h.reopens]
    show s.reopens reason + (if Reopening.rotated = reason then 1 else 0) + _ = _
    simp only [List.length_cons]
    split <;> omega

namespace Follower

variable {run : Run} {s : Stretch}

/-- Polls that do not find the file leave the follower waiting for it. -/
theorem follow_missing {missing os : List Occasion} (h : run.Awaits s (missing ++ os))
    (ho : ∀ o ∈ missing, o.Serves s.number) (hno : ∀ o ∈ missing, ¬ o.Finds s.number) :
    (follow run missing).Ends (fun run' => run'.Awaits s os)
      (fun f run' => ∃ o ∈ missing, o.Stops s (o.view.data s.number).bytes f run') := by
  induction missing generalizing run with
  | nil => exact follow_nil_ends h
  | cons m ms ih =>
    have hmeet := meet_awaits h (ho m List.mem_cons_self)
    refine follow_cons_ends (hmeet.mono (fun run' h' => ?_)
      fun f run' h' => ⟨m, List.mem_cons_self, h'⟩)
    rcases h' with ⟨hfinds, -, -⟩ | ⟨-, hawaits⟩
    · exact absurd hfinds (hno m List.mem_cons_self)
    · have hrest := ih hawaits (fun p hp => ho p (List.mem_cons_of_mem m hp))
        fun p hp => hno p (List.mem_cons_of_mem m hp)
      exact hrest.mono (fun _ h => h) fun f run'' h'' =>
        h''.imp fun p hp => ⟨List.mem_cons_of_mem m hp.1, hp.2⟩

/-- Polls of one era read all that its file holds on the last of them. -/
theorem follow_era {e : Era} (calm : ∀ o ∈ e.occasions, o.Calm e.number)
    (grows : Grows e.number e.occasions) (hs : s.number = e.number)
    (hr : run.Reads s (e.first.view.data e.number).bytes)
    (hrests : run.Rests e.first (e.first.view.data e.number).bytes) :
    (follow run e.later).Ends
      (fun run' => run'.Reads s e.content ∧ run'.follower.offset = e.content.length)
      (fun f _ => ∃ o ∈ e.later, ∃ t, o.take t = some f) := by
  obtain ⟨n, first, later⟩ := e
  obtain rfl : s.number = n := hs
  have hlater : ∀ o ∈ later, o.Calm s.number := fun o ho => calm o (List.mem_cons_of_mem first ho)
  refine (follow_reads hr hrests (fun o ho => (hlater o ho).serves) grows).mono
    (fun run' h => ?_) ?_
  · exact ⟨h.1, (calm _ List.getLastD_mem_cons).at_end h.2⟩
  · rintro f run' ⟨o, ho, hstops⟩
    exact ⟨o, ho, (hlater o ho).exists_not_taken (hstops.breaks (hlater o ho).serves)⟩

/-- A follower that has met the first file reads all of them, one after the other. -/
theorem follow_eras {e : Era} {rest : List Era} (h : Succession (e :: rest))
    (hs : s.number = e.number) (hr : run.Reads s (e.first.view.data e.number).bytes)
    (hrests : run.Rests e.first (e.first.view.data e.number).bytes) :
    (follow run (e.later ++ rest.flatMap Era.occasions)).Ends
      (fun run' => ∃ last t, run'.Succeeds s (e :: rest) last t)
      (fun f _ => ∃ o ∈ e.later ++ rest.flatMap Era.occasions, ∃ t, o.take t = some f) := by
  induction rest generalizing run s e with
  | nil =>
    cases h with
    | last _ calm there grows =>
      rw [List.flatMap_nil, List.append_nil]
      refine (follow_era calm grows hs hr hrests).mono (fun run' h' => ?_) fun _ _ h' => h'
      obtain ⟨hreads, hend⟩ := h'
      have hlines := hreads.lines
      rw [hend, List.take_length] at hlines
      exact ⟨e, s, rfl, hs, rfl, hreads, hend, hlines, fun reason => (ite_self 0).symm ▸ rfl⟩
  | cons e' rest ih =>
    cases h with
    | next _ _ _ calm there other grows after =>
      obtain ⟨hgrows, -, hsuccessor⟩ := List.pairwise_append.1 grows
      obtain ⟨hcalm', hthere'⟩ := after.first_calm
      have hgrow : e.content <+: (e'.first.view.data e.number).bytes :=
        hsuccessor _ List.getLastD_mem_cons _ (List.mem_singleton.2 rfl)
      rw [← hs] at other hgrow
      refine follow_append_ends ((follow_era calm hgrows hs hr hrests).mono (fun run₁ h₁ => ?_) ?_)
      · show (follow run₁ (e'.first :: (e'.later ++ rest.flatMap Era.occasions))).Ends _ _
        have hmeet := meet_rotates h₁.1 hcalm' hthere' other hgrow
        refine follow_cons_ends (hmeet.mono (fun run₂ h₂ => ?_) fun f run₂ hb => ?_)
        · refine (ih after rfl h₂.1 h₂.2).mono (fun run₃ h₃ => ?_) fun f _ h₃ => ?_
          · obtain ⟨last, t, hsucceeds⟩ := h₃
            rw [hs] at hsucceeds
            exact ⟨last, t, hsucceeds.cons⟩
          · exact h₃.imp fun o ho => ⟨by simp [Era.occasions, ho.1], ho.2⟩
        · exact ⟨e'.first, by simp [Era.occasions], hcalm'.exists_not_taken hb⟩
      · rintro f - ⟨o, ho, hrefuses⟩
        exact ⟨o, List.mem_append_left _ ho, hrefuses⟩

/-- Files that follow one another are all read, and each line of them is delivered once: all lines
of a file that is left for another one, as it is when that is seen, an unfinished last one included,
and the complete lines of the last file.  The counter of rotations is the number of files that were
left, and what is pending comes of the last file alone.  The run fails only if a line is not
taken. -/
theorem follow_succession {source : Source} {limit : Int} {missing : List Occasion}
    {eras : List Era}
    (hmissing : ∀ o ∈ missing, (∀ kind, o.refusals.Spares kind) ∧
      o.view.target = .unreachable .noEntry)
    (h : Succession eras) :
    (follow (start source limit) (missing ++ eras.flatMap Era.occasions)).Ends
      (fun run =>
        run.lines =
          (successionLines (startPoint source (missing ++ eras.flatMap Era.occasions)) eras).map
          lineText ∧
        run.reopens .rotated + 1 = eras.length ∧ run.reopens .truncated = 0 ∧
        ∃ last, eras.getLast? = some last ∧
          (∃ handle, run.follower.handle = some handle ∧ handle.number = last.number) ∧
          run.follower.offset = last.content.length ∧
          run.follower.pending = Lines.unfinished (last.content.drop (if eras.length = 1 then
            startPoint source (missing ++ eras.flatMap Era.occasions) else 0)))
      (fun f _ => ∃ o ∈ missing ++ eras.flatMap Era.occasions, ∃ t, o.take t = some f) := by
  cases eras with
  | nil => cases h
  | cons e rest =>
    obtain ⟨hcalm, hthere⟩ := h.first_calm
    have hserves : ∀ o ∈ missing, o.Serves e.number := fun o ho =>
      ⟨.inr ⟨_, (hmissing o ho).2⟩, (hmissing o ho).1 .seek, (hmissing o ho).1 .readHead⟩
    have hno : ∀ o ∈ missing, ¬ o.Finds e.number := by
      rintro o ho ⟨-, ht⟩
      rw [(hmissing o ho).2] at ht
      cases ht
    set os := (e :: rest).flatMap Era.occasions with hos
    have hmem : os = e.first :: (e.later ++ rest.flatMap Era.occasions) := hos
    have hmeets := follow_missing (awaits_start source limit e.number (missing ++ os)) hserves hno
    refine follow_append_ends (hmeets.mono (fun run₁ h₁ => ?_) ?_)
    · have hmeet := meet_awaits h₁ hcalm.serves
      show (follow run₁ (e.first :: (e.later ++ rest.flatMap Era.occasions))).Ends _ _
      refine follow_cons_ends (hmeet.mono (fun run₂ h₂ => ?_) fun f run₂ hstops => ?_)
      · rcases h₂ with ⟨-, hreads, hrests⟩ | ⟨hno, -⟩
        · refine (follow_eras h rfl hreads hrests).mono (fun run₃ h₃ => ?_) fun f _ h₃ => ?_
          · obtain ⟨last, t, hlast⟩ := h₃
            have hrotated := hlast.reads.reopens .rotated
            have htruncated := hlast.reads.reopens .truncated
            rw [hlast.reopens] at hrotated htruncated
            obtain ⟨handle, hopen, hnumber, -⟩ := hlast.reads.handle
            have hpending := hlast.reads.pending
            rw [hlast.at_end, List.take_length, hlast.start] at hpending
            refine ⟨hlast.lines, ?_, htruncated.trans rfl, last, hlast.getLast, ?_,
              hlast.at_end, hpending⟩
            · simp only [hrotated, if_pos, Nat.zero_add, List.length_cons]
              omega
            · exact ⟨handle, hopen, hnumber.trans hlast.number⟩
          · obtain ⟨o, ho, hrefuses⟩ := h₃
            refine ⟨o, List.mem_append_right _ ?_, hrefuses⟩
            rw [hmem]
            exact List.mem_cons_of_mem _ ho
        · exact absurd ⟨(hcalm.spares .openFile).ask_fst, hthere⟩ hno
      · exact ⟨e.first, by simp [hmem], hcalm.exists_not_taken (hstops.breaks hcalm.serves)⟩
    · rintro f run₁ ⟨o, ho, hstops⟩
      have hquiet : o.Calm e.number := ⟨.inr (hmissing o ho).2, (hmissing o ho).1⟩
      exact ⟨o, List.mem_append_left _ ho, hquiet.exists_not_taken (hstops.breaks hquiet.serves)⟩

/-- An occasion without a file at the path. -/
def noLog : Occasion :=
  ⟨⟨.unreachable .noEntry, fun _ => ⟨[97, 10, 98], 1, 0⟩⟩, .none, fun _ => none⟩

/-- A file that is renamed away in the middle of a line and is longer when the next one is seen. -/
def renamedLog : List Era := [
  ⟨1, ⟨⟨.file 1, fun _ => ⟨[97, 10, 98], 1, 0⟩⟩, .none, fun _ => none⟩, [noLog]⟩,
  ⟨2, ⟨⟨.file 2, fun n => if n = 1 then ⟨[97, 10, 98, 99], 2, 0⟩ else ⟨[100, 10, 101], 3, 0⟩⟩,
    .none, fun _ => none⟩, []⟩]

theorem succession_renamedLog : Succession renamedLog := by
  refine .next _ _ _ (fun o ho => ?_) rfl (by decide) ?_ (.last _ (fun o ho => ?_) rfl ?_)
  · simp only [Era.occasions, List.mem_cons, List.not_mem_nil, or_false] at ho
    rcases ho with rfl | rfl
    · exact ⟨.inl rfl, Refusals.spares_none⟩
    · exact ⟨.inr rfl, Refusals.spares_none⟩
  · unfold Grows
    decide
  · simp only [Era.occasions, List.mem_cons, List.not_mem_nil, or_false] at ho
    subst ho
    exact ⟨.inl rfl, Refusals.spares_none⟩
  · exact List.pairwise_singleton _ _

theorem follow_renamedLog :
    (∀ o ∈ [noLog], (∀ kind, o.refusals.Spares kind) ∧ o.view.target = .unreachable .noEntry) ∧
    Succession renamedLog ∧
    (follow (start ⟨"app", ⟨.none, ["app.log"]⟩, false, false, .web⟩ 3)
      ([noLog] ++ renamedLog.flatMap Era.occasions)).Ends
      (fun run => run.lines = ["a", "bc", "d"] ∧ run.reopens .rotated = 1 ∧
        run.follower.pending = [101])
      (fun _ _ => False) := by
  have hmissing : ∀ o ∈ [noLog], (∀ kind, o.refusals.Spares kind) ∧
      o.view.target = .unreachable .noEntry := by
    intro o ho
    obtain rfl := List.mem_singleton.1 ho
    exact ⟨Refusals.spares_none, rfl⟩
  refine ⟨hmissing, succession_renamedLog,
    (follow_succession hmissing succession_renamedLog).mono (fun run h => ?_) fun f run h => ?_⟩
  · obtain ⟨hlines, hrotated, -, last, hlast, -, -, hpending⟩ := h
    obtain rfl := Option.some.inj hlast
    exact ⟨hlines, Nat.succ.inj hrotated, hpending⟩
  · obtain ⟨o, ho, t, ht⟩ := h
    simp only [renamedLog, Era.occasions, List.flatMap_cons, List.flatMap_nil, List.cons_append,
      List.nil_append, List.append_nil, List.mem_cons, List.not_mem_nil, or_false] at ho
    rcases ho with rfl | rfl | rfl | rfl <;> cases ht

end Follower

end LogRelay
