import LogRelay.Proofs.Beginning
import LogRelay.Proofs.Reached

/-!
# Checks that fail

A check of the open file asks what is at the path and, if the file has changed, looks at how it
begins: it moves the handle to the start, reads the first octets and moves back.  Any of these calls
can be refused.  Nothing but the place of the handle and the count of failures changes then, and
`Run.Fails` says where each call leaves the handle: at the offset, if the handle was not moved yet,
but at the start or behind the first octets if the look or the way back was refused.

So a follower that was refused one of these last two reads on from the wrong place.  As long as that
did not happen, every file that is only appended to is relayed whichever other calls are refused
(`check_in_place`).
-/

namespace LogRelay

/-! ## Calls that fail -/

namespace Run

/-- A look at how the open file begins is refused with an error, which leaves the handle at a
position; it is astray if it was moved for the look. -/
inductive LookFails (run : Run) (view : View) (h : Handle) : IoError → Nat → Bool → Prop
  | start {e : IoError}
      (refused : run.refusal? .seek = some e) : run.LookFails view h e h.position false
  | head {e : IoError} (moved : run.refusal? .seek = none)
      (refused : (Work.atStart run h).refusal? .readHead = some e) : run.LookFails view h e 0 true
  | back {e : IoError} (moved : run.refusal? .seek = none)
      (looked : (Work.atStart run h).refusal? .readHead = none)
      (refused : (Work.behindHead run view h).refusal? .seek = some e) :
      run.LookFails view h e ((h.seek 0).read (view.data h.number).bytes headSize).1.length true

/-- A check of the open file fails with an error, which leaves the handle at a position. -/
inductive Fails (run : Run) (view : View) (h : Handle) : IoError → Nat → Bool → Prop
  /-- What is at the path could not be found out. -/
  | stat {e : IoError}
      (error : run.error? view .stat = some e) : run.Fails view h e h.position false
  /-- The file has changed. -/
  | look {e : IoError} {position : Nat} {astray : Bool} (found : run.error? view .stat = none)
      (path : view.number? = some h.number)
      (changed : ¬ (run.follower.offset ≤ (view.data h.number).bytes.length ∧
        (view.data h.number).stamp = run.follower.stamp))
      (fails : (run.asked .stat).LookFails view h e position astray) :
      run.Fails view h e position astray

/-- Nothing has changed but the place of the open handle and the count of failures. -/
structure Left (run : Run) (h : Handle) (position : Nat) (run' : Run) : Prop where
  follower : ∃ h' failures, run'.follower = { run.follower with handle := some h', failures } ∧
    h'.number = h.number ∧ h'.position = position
  lines : run'.lines = run.lines

variable {run run' : Run} {h : Handle} {position : Nat} {e : IoError}

theorem left_of_handle {kind : CallKind} (hh : run.follower.handle = some h) :
    run.Left h h.position (run.asked kind) := by
  refine ⟨⟨h, run.follower.failures, ?_, rfl, rfl⟩, rfl⟩
  rw [← hh]
  rfl

theorem Left.failed (hl : run.Left h position run') (e : IoError) :
    run.Left h position (run'.failed e) := by
  obtain ⟨h', failures, hf, hn, hp⟩ := hl.follower
  refine ⟨⟨h', failures + 1, ?_, hn, hp⟩, (lines_log_of_eq_none rfl).trans hl.lines⟩
  show { run'.follower with failures := run'.follower.failures + 1 } = _
  rw [hf]

/-! ### Straying -/

theorem Strayed.of_failed (h : (run.failed e).Strayed) : run.Strayed := h

/-- Only a refused read of the beginning, or a refused move behind such a read, makes a run
stray. -/
theorem Strayed.of_asked {kind : CallKind} (h : (run.asked kind).Strayed) (hhead : kind ≠ .readHead)
    (hseek : kind = .seek → ¬ [⟨.readHead, none⟩] <+: run.calls) : run.Strayed := by
  obtain ⟨errno, h⟩ := h
  refine ⟨errno, h.imp (fun h => ?_) fun h => ?_⟩
  · obtain h | h := List.infix_cons_iff.1 h
    · exact absurd (congrArg Call.kind (List.cons_prefix_cons.1 h).1).symm hhead
    · exact h
  · obtain h | h := List.infix_cons_iff.1 h
    · obtain ⟨hcall, hbefore⟩ := List.cons_prefix_cons.1 h
      have hlooked : [⟨.readHead, none⟩] <+: [⟨.readHead, none⟩, (⟨.seek, none⟩ : Call)] :=
        List.prefix_append _ _
      exact absurd (hlooked.trans hbefore) (hseek (congrArg Call.kind hcall).symm)
    · exact h

/-- To ask what is at the path does not make a run stray. -/
theorem Strayed.of_stat (h : (run.asked .stat).Strayed) : run.Strayed :=
  h.of_asked (by decide) fun hk => by cases hk

/-- To be refused the move to the start does not make a run stray. -/
theorem Strayed.of_start (h : ((run.asked .stat).asked .seek).Strayed) : run.Strayed := by
  refine (h.of_asked (by decide) fun _ hlooked => ?_).of_stat
  cases (List.cons_prefix_cons.1 hlooked).1

end Run

/-! ## What a check that fails leaves -/

namespace Work

variable {view : View} {take : Taker} {run : Run} {h : Handle} {e : IoError}
  {position : Nat} {astray : Bool}

theorem wp_readHead_fails (hh : run.follower.handle = some h) (ha : h.Anchored)
    (hf : run.LookFails view h e position astray) :
    wp (readHead view) (fun found run' => found = .error e ∧ run.Left h position run' ∧
      (astray = false → run' = run.asked .seek) ∧ (astray = true → run'.Strayed))
      (fun _ _ => False) run := by
  cases hf with
  | start hrefused =>
    refine wp_readHead hh (fun e' he => ?_) (fun hs => ?_) (fun hs => ?_) fun hs => ?_
    · obtain rfl := Option.some.inj (hrefused.symm.trans he)
      exact ⟨rfl, Run.left_of_handle hh, fun _ => rfl, nofun⟩
    all_goals
      rw [hrefused] at hs
      cases hs
  | head hmoved hrefused =>
    refine wp_readHead hh (fun e' he => ?_) (fun hs e' he => ?_) (fun _ hr => ?_) fun _ hr => ?_
    · rw [hmoved] at he
      cases he
    · obtain rfl := Option.some.inj (hrefused.symm.trans he)
      refine ⟨rfl, ⟨⟨h.seek 0, run.follower.failures, rfl, Handle.number_seek h 0, ?_⟩, rfl⟩,
        nofun, fun _ => ?_⟩
      · exact Handle.position_seek ha 0
      · exact strayed_of_head hs he
    all_goals
      rw [hrefused] at hr
      cases hr
  | back hmoved hlooked hrefused =>
    refine wp_readHead hh (fun e' he => ?_) (fun _ e' he => ?_) (fun hs hr e' he => ?_)
      fun _ _ hb => ?_
    · rw [hmoved] at he
      cases he
    · rw [hlooked] at he
      cases he
    · obtain rfl := Option.some.inj (hrefused.symm.trans he)
      refine ⟨rfl, ⟨⟨_, run.follower.failures, rfl, ?_, ?_⟩, rfl⟩, nofun,
        fun _ => strayed_of_back hs hr he⟩
      · rw [Handle.number_read, Handle.number_seek]
      · rw [Handle.position_read (ha.seek 0), Handle.position_seek ha, Nat.zero_add]
    · rw [hrefused] at hb
      cases hb

/-- A check that fails leaves the follower as it was, apart from the place of the handle. -/
theorem wp_checkRotation_fails (hh : run.follower.handle = some h) (hs : run.follower.Sound)
    (ha : h.Anchored) (hns : ¬ run.Strayed) (hf : run.Fails view h e position astray) :
    wp (checkRotation view take)
      (fun done run' => done = false ∧ run.Left h position run' ∧ (run'.Strayed ↔ astray = true))
      (fun f run' => f = .tail run.follower.source.path.text e.message ∧
        run.follower.limit ≤ run'.follower.failures) run := by
  have hleft : run.Left h h.position (run.asked .stat) := Run.left_of_handle hh
  cases hf with
  | stat herror =>
    have hcontra {p : Prop} (hnone : run.error? view .stat = none) : p := by
      rw [herror] at hnone
      cases hnone
    refine wp_checkRotation (fun e' he _ => ?_) (fun e' he _ => ?_) (fun _ _ hnone => hcontra hnone)
      (fun _ _ hnone _ => hcontra hnone) (fun _ _ hnone _ _ _ => hcontra hnone)
      fun _ _ hnone _ _ => hcontra hnone
    · exact ⟨rfl, hleft, fun h => absurd h.of_stat hns, nofun⟩
    · obtain rfl := Option.some.inj (herror.symm.trans he)
      refine wp_recordFailure (fun hlimit => ⟨rfl, hlimit⟩)
        fun _ => ⟨rfl, hleft.failed e, fun h => ?_, nofun⟩
      exact absurd h.of_failed.of_stat hns
  | look hfound hpath hchanged hlook =>
    obtain ⟨hid, -⟩ := hs h hh
    have hnumber {n : Nat} (hn : view.number? = some n) : n = h.number :=
      Option.some.inj (hn.symm.trans hpath)
    refine wp_checkRotation (fun e' he => ?_) (fun e' he => ?_) (fun why hwhy => ?_)
      (fun n hn _ hother => ?_) (fun n hn _ _ hle hstamp => ?_) fun n hn _ _ _ => ?_
    · rw [hfound] at he
      cases he
    · rw [hfound] at he
      cases he
    · rw [View.number?_of_unnameable hwhy] at hpath
      cases hpath
    · exact absurd (hnumber hn ▸ hid) hother
    · obtain rfl := hnumber hn
      exact absurd ⟨hle, hstamp⟩ hchanged
    · obtain rfl := hnumber hn
      have hh' : (run.asked .stat).follower.handle = some h := hh
      refine (wp_readHead_fails hh' ha hlook).mono (fun found run₁ h₁ => ?_) fun _ _ h => h.elim
      obtain ⟨rfl, hleft₁, hkept, hstrayed⟩ := h₁
      refine ⟨fun e' he' => ?_, nofun, nofun⟩
      obtain rfl := Except.error.inj he'
      have hleft₂ : run.Left h position run₁ := ⟨hleft₁.follower, hleft₁.lines⟩
      obtain ⟨h', failures, hfollower, -⟩ := hleft₂.follower
      refine wp_recordFailure (fun hlimit => ?_)
        fun _ => ⟨rfl, hleft₂.failed e, fun h => ?_, fun h => ?_⟩
      · rw [hfollower] at hlimit ⊢
        exact ⟨rfl, hlimit⟩
      · cases astray with
        | true => rfl
        | false =>
          rw [hkept rfl] at h
          exact absurd h.of_failed.of_start hns
      · exact hstrayed h

end Work

/-! ## Runs -/

namespace Follower

/-- In every state that a follower reaches without having strayed the handle is at the offset, and a
check that fails leaves the follower as it was and the handle where the refused call finds it: at
the offset, unless it was moved for a look, by which the run strays.  And as long as it has not
strayed, a run with a file that is only appended to relays it, whichever calls are refused. -/
theorem check_in_place {source : Source} {limit : Int} :
    (∀ {run : Run} {view : View} {take : Taker} {h : Handle} {e : IoError}
      {position : Nat} {astray : Bool},
      Reached source limit run → ¬ run.Strayed → run.follower.handle = some h →
      run.Fails view h e position astray →
        h.position = run.follower.offset ∧ (astray = false → position = run.follower.offset) ∧
        Work.wp (Work.checkRotation view take)
          (fun done run' => done = false ∧ run.Left h position run' ∧
            (run'.Strayed ↔ astray = true))
          (fun f run' => f = .tail source.path.text e.message ∧
            limit ≤ run'.follower.failures) run) ∧
    ∀ {n : Nat} {os : List Occasion}, Extends n os →
      (follow (start source limit) os).Ends
        (fun run => run.Relays n (beginning source os) os ∨ run.Strayed)
        fun _ run => run.RelaysPart n (beginning source os) os ∨ run.Strayed := by
  refine ⟨fun {run view take h e position astray} hr hs hh hf => ?_, follow_extends⟩
  have hupright := hr.upright
  have hposition := hr.position_eq hh hs
  obtain ⟨-, hanchored, -⟩ := hupright.placed h hh
  refine ⟨hposition, fun hstays => ?_, ?_⟩
  · cases hf with
    | stat => exact hposition
    | look _ _ _ hlook =>
      cases hlook with
      | start => exact hposition
      | head => cases hstays
      | back => cases hstays
  · rw [← hupright.source_eq, ← hupright.limit_eq]
    exact Work.wp_checkRotation_fails hh hupright.sound hanchored hs hf

/-- A log of which one more line is seen while the handle may not be moved. -/
def pinnedLog : List Occasion := [
  ⟨⟨.file 7, fun _ => ⟨[97, 10], 1, 0⟩⟩, .none, fun _ => none⟩,
  ⟨⟨.file 7, fun _ => ⟨[97, 10, 98, 10], 2, 0⟩⟩,
    Refusals.none.set .seek ⟨0, 1, .inputOutput⟩, fun _ => none⟩]

/-- What the second poll of it begins with. -/
def pinnedRun : Run :=
  { (follow (start ⟨"app", ⟨.none, ["app.log"]⟩, true, false, .web⟩ 3) (pinnedLog.take 1)).run with
    refusals := Refusals.none.set .seek ⟨0, 1, .inputOutput⟩ }

theorem check_pinnedLog :
    Reached ⟨"app", ⟨.none, ["app.log"]⟩, true, false, .web⟩ 3 pinnedRun ∧ ¬ pinnedRun.Strayed ∧
    pinnedRun.follower.handle = some ⟨7, 2, [], 0⟩ ∧
    pinnedRun.Fails ⟨.file 7,
      fun _ => ⟨[97, 10, 98, 10], 2, 0⟩⟩ ⟨7, 2, [], 0⟩ ⟨.inputOutput, none⟩ 2 false ∧
    Extends 7 pinnedLog ∧
    Work.wp (Work.checkRotation ⟨.file 7, fun _ => ⟨[97, 10, 98, 10], 2, 0⟩⟩ fun _ => none)
      (fun done run => done = false ∧ pinnedRun.Left ⟨7, 2, [], 0⟩ 2 run ∧ ¬ run.Strayed)
      (fun _ _ => True) pinnedRun ∧
    (follow (start ⟨"app", ⟨.none, ["app.log"]⟩, true, false, .web⟩ 3) pinnedLog).Ends
      (fun run => run.Relays 7 0 pinnedLog ∨ run.Strayed)
      (fun _ run => run.RelaysPart 7 0 pinnedLog ∨ run.Strayed) := by
  have hreached : Reached ⟨"app", ⟨.none, ["app.log"]⟩, true, false, .web⟩ 3 pinnedRun :=
    .schedule _ (Reached.follow .start rfl)
  have hstraight : ¬ pinnedRun.Strayed := by
    have hpassed : ∀ c ∈ pinnedRun.calls, c.refusal = none := by decide +kernel
    rintro ⟨errno, h | h⟩
    · cases hpassed _ (h.subset List.mem_cons_self)
    · cases hpassed _ (h.subset List.mem_cons_self)
  have hhandle : pinnedRun.follower.handle = some ⟨7, 2, [], 0⟩ := rfl
  have hfails : pinnedRun.Fails ⟨.file 7, fun _ => ⟨[97, 10, 98, 10], 2, 0⟩⟩ ⟨7, 2, [], 0⟩
      ⟨.inputOutput, none⟩ 2 false := .look rfl rfl (by decide) (.start rfl)
  have hpaths : ∀ o ∈ pinnedLog, o.view.target = .file 7 ∨ ∃ e, o.view.target = .unreachable e := by
    intro o ho
    simp only [pinnedLog, List.mem_cons, List.not_mem_nil, or_false] at ho
    rcases ho with rfl | rfl <;> exact .inl rfl
  have hgrows : Grows 7 pinnedLog := by
    unfold Grows
    decide
  have hextends : Extends 7 pinnedLog := hgrows.extends hpaths
  obtain ⟨hcheck, hfollow⟩ :=
    @check_in_place ⟨"app", ⟨.none, ["app.log"]⟩, true, false, .web⟩ 3
  obtain ⟨-, -, hleft⟩ :=
    @hcheck pinnedRun _ (fun _ => none) _ _ _ _ hreached hstraight hhandle hfails
  refine ⟨hreached, hstraight, hhandle, hfails, hextends,
    hleft.mono (fun done run h => ?_) fun _ _ _ => trivial, hfollow hextends⟩
  obtain ⟨hdone, hkept, hstrayed⟩ := h
  exact ⟨hdone, hkept, fun hs => nomatch hstrayed.1 hs⟩

/-- A log of which one more line is seen while its beginning may not be read. -/
def unseenLog : List Occasion := [
  ⟨⟨.file 7, fun _ => ⟨[97, 10], 1, 0⟩⟩, .none, fun _ => none⟩,
  ⟨⟨.file 7, fun _ => ⟨[97, 10, 98, 10], 2, 0⟩⟩,
    Refusals.none.set .readHead ⟨0, 1, .inputOutput⟩, fun _ => none⟩]

/-- The file is read again from its start, and then once more, as it seems to have been cut. -/
theorem follow_unseenLog :
    Grows 7 unseenLog ∧
    (follow (start ⟨"app", ⟨.none, ["app.log"]⟩, true, false, .web⟩ 10) unseenLog).Ends
      (fun run => run.lines = ["a", "a", "b", "a", "b"] ∧ run.reopens .truncated = 1)
      (fun _ _ => False) := by
  refine ⟨?_, by decide +kernel⟩
  unfold Grows
  decide

end Follower

end LogRelay
