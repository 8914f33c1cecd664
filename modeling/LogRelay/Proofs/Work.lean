import LogRelay.Proofs.Handle
import LogRelay.Proofs.Lines

/-!
# Reasoning about work

`Work.wp w Q E run` says where work `w` leads that is begun in `run`: to `Q` of its value and the
run after it if it is done, to `E` of the failure and the run if it fails.  There is one rule for
each part of a follower's work (`wp_ask`, `wp_recordFailure`, `wp_deliver`, `wp_readChunk`, …), so
that larger parts are followed step by step without opening the smaller ones.

A schedule that lists no refusal of a kind of call `Spares` that kind, and goes on to do so.
-/

namespace LogRelay

/-! ## Refusals -/

namespace Refusals

/-- No call of a kind will be refused. -/
def Spares (rs : Refusals) (kind : CallKind) : Prop :=
  ∀ outcome ∈ rs.next kind, outcome = Option.none

variable {rs : Refusals} {kind : CallKind}

theorem spares_none (kind : CallKind) : none.Spares kind := fun _ h => absurd h List.not_mem_nil

theorem Spares.ask_fst (h : rs.Spares kind) : (rs.ask kind).1 = Option.none := by
  unfold ask
  split
  · rfl
  · next outcome rest hn => exact h outcome (hn ▸ List.mem_cons_self)

/-- The second schedule is what the first one leaves after some calls. -/
def Leaves (before after : Refusals) : Prop := ∀ kind, after.next kind <:+ before.next kind

variable {rs' rs'' : Refusals}

theorem Leaves.refl (rs : Refusals) : rs.Leaves rs := fun _ => List.suffix_rfl

theorem Leaves.trans (h : rs.Leaves rs') (h' : rs'.Leaves rs'') : rs.Leaves rs'' :=
  fun kind => (h' kind).trans (h kind)

theorem Leaves.spares (h : rs.Leaves rs') (hs : rs.Spares kind) : rs'.Spares kind :=
  fun outcome ho => hs outcome ((h kind).subset ho)

theorem leaves_ask (rs : Refusals) (asked : CallKind) : rs.Leaves (rs.ask asked).2 := by
  intro kind
  unfold ask
  split
  · exact List.suffix_rfl
  · next outcome rest hn =>
    unfold schedule
    by_cases hk : kind = asked
    · subst hk
      simp [hn]
    · simp [hk]

end Refusals

/-! ## Changes of a run -/

theorem View.number?_of_file {view : View} {n : Nat} (h : view.target = .file n) :
    view.number? = some n := by
  rw [number?, h]

theorem View.number?_of_unreachable {view : View} {e : Errno} (h : view.target = .unreachable e) :
    view.number? = none := by
  rw [number?, h]

theorem View.number?_of_unnameable {view : View} {why : Unnameable}
    (h : view.target = .unnameable why) : view.number? = none := by
  rw [number?, h]

/-- The error that what is at the path brings about in a call of a kind that is not refused. -/
def View.error? (view : View) (path : Text) : CallKind → Option IoError
  | .openFile =>
    match view.target with
    | .unreachable e => some ⟨e, some path⟩
    | .directory _ => some ⟨.isDirectory, some path⟩
    | _ => none
  | .stat =>
    match view.target with
    | .unreachable e => some ⟨e, some path⟩
    | _ => none
  | _ => none

namespace Run

/-- The run after a call of a kind was made. -/
def asked (run : Run) (kind : CallKind) : Run :=
  { run with
    refusals := (run.refusals.ask kind).2
    calls := ⟨kind, (run.refusals.ask kind).1⟩ :: run.calls }

/-- The error that the next call of a kind is refused with. -/
def refusal? (run : Run) (kind : CallKind) : Option IoError :=
  (run.refusals.ask kind).1.map fun errno => ⟨errno, none⟩

/-- The error that the next call of a kind comes to: it is refused with it, or finds it at the
path. -/
def error? (run : Run) (view : View) (kind : CallKind) : Option IoError :=
  (run.refusal? kind).or (view.error? run.follower.source.path.text kind)

/-- The run with another state of the follower. -/
def put (run : Run) (f : Follower) : Run := { run with follower := f }

/-- The run with one more event. -/
def log (run : Run) (e : FollowEvent) : Run := { run with events := e :: run.events }

/-- The run with the open file at another place. -/
def moved (run : Run) (h : Handle) : Run := run.put { run.follower with handle := some h }

/-- The run after some lines were delivered. -/
def logLines (run : Run) (lines : List Bytes) : Run :=
  { run with events := (lines.map fun l => .line (lineText l)).reverse ++ run.events }

/-- The run after a failure was counted. -/
def failed (run : Run) (e : IoError) : Run :=
  (run.put { run.follower with failures := run.follower.failures + 1 }).log
    (.refused e.message (run.follower.failures + 1))

variable (run : Run)

@[simp] theorem follower_asked (kind : CallKind) : (run.asked kind).follower = run.follower := rfl

@[simp] theorem follower_put (f : Follower) : (run.put f).follower = f := rfl

@[simp] theorem events_log (e : FollowEvent) : (run.log e).events = e :: run.events := rfl

@[simp] theorem follower_logLines (ls : List Bytes) : (run.logLines ls).follower = run.follower :=
  rfl

theorem logLines_nil : run.logLines [] = run := rfl

theorem logLines_cons (l : Bytes) (ls : List Bytes) :
    run.logLines (l :: ls) = (run.log (.line (lineText l))).logLines ls := by
  simp [logLines, log]

variable {run}

theorem refusal?_of_spares {kind : CallKind} (h : run.refusals.Spares kind) :
    run.refusal? kind = none := by
  rw [refusal?, h.ask_fst, Option.map_none]

theorem error?_of_refusal? {view : View} {kind : CallKind} {e : IoError}
    (h : run.refusal? kind = some e) : run.error? view kind = some e := by
  rw [error?, h, Option.some_or]

theorem error?_of_passed {view : View} {kind : CallKind} (h : run.refusal? kind = none) :
    run.error? view kind = view.error? run.follower.source.path.text kind := by
  rw [error?, h, Option.none_or]

theorem error?_of_found {view : View} {n : Nat} (h : run.refusal? .stat = none)
    (hn : view.number? = some n) : run.error? view .stat = none := by
  rw [error?_of_passed h, View.error?]
  rw [View.number?] at hn
  cases ht : view.target <;> simp [ht] at hn ⊢

/-- A call of one kind leaves those of another as they are scheduled. -/
theorem next_asked_of_ne {kind asked : CallKind} (h : kind ≠ asked) :
    (run.asked asked).refusals.next kind = run.refusals.next kind := by
  show ((run.refusals.ask asked).2).next kind = run.refusals.next kind
  unfold Refusals.ask
  split
  · rfl
  · exact if_neg h

theorem refusal?_asked_of_ne {kind asked : CallKind} (h : kind ≠ asked) :
    (run.asked asked).refusal? kind = run.refusal? kind := by
  unfold refusal? Refusals.ask
  rw [next_asked_of_ne h]
  cases run.refusals.next kind <;> rfl

theorem spares_asked {kind : CallKind} (h : run.refusals.Spares kind) (asked : CallKind) :
    (run.asked asked).refusals.Spares kind := (Refusals.leaves_ask _ asked).spares h

end Run

/-! ## The rules -/

namespace Work

variable {α β : Type}

/-- Where work leads from a run: to `Q` if it is done, to `E` if it fails. -/
def wp (w : Work α) (Q : α → Run → Prop) (E : Failure → Run → Prop) (run : Run) : Prop :=
  match w run with
  | .ok a run => Q a run
  | .error f run => E f run

variable {Q Q' : α → Run → Prop} {E E' : Failure → Run → Prop} {run : Run}

theorem wp_pure (a : α) : wp (pure a) Q E run ↔ Q a run := Iff.rfl

theorem wp_bind {w : Work β} {k : β → Work α} :
    wp (w >>= k) Q E run ↔ wp w (fun b run => wp (k b) Q E run) E run := by
  unfold wp
  show (match EStateM.bind w k run with | .ok a run => Q a run | .error f run => E f run) ↔ _
  unfold EStateM.bind
  cases w run <;> rfl

theorem wp.mono {w : Work α} (h : wp w Q E run) (hQ : ∀ a run, Q a run → Q' a run)
    (hE : ∀ f run, E f run → E' f run) : wp w Q' E' run := by
  unfold wp at h ⊢
  cases hw : w run with
  | ok a run =>
    rw [hw] at h
    exact hQ a run h
  | error f run =>
    rw [hw] at h
    exact hE f run h

theorem wp.and {w : Work α} (h : wp w Q E run) (h' : wp w Q' E' run) :
    wp w (fun a run => Q a run ∧ Q' a run) (fun f run => E f run ∧ E' f run) run := by
  unfold wp at h h' ⊢
  cases hw : w run with
  | ok a run =>
    rw [hw] at h h'
    exact ⟨h, h'⟩
  | error f run =>
    rw [hw] at h h'
    exact ⟨h, h'⟩

/-! ### Single calls -/

section Unit

variable {Q : Unit → Run → Prop}

theorem wp_emit (e : FollowEvent) : wp (emit e) Q E run ↔ Q () (run.log e) := Iff.rfl

theorem wp_update (g : Follower → Follower) :
    wp (update g) Q E run ↔ Q () (run.put (g run.follower)) := Iff.rfl

theorem wp_recordFailure {e : IoError}
    (hE : run.follower.limit ≤ (run.failed e).follower.failures →
      E (.tail run.follower.source.path.text e.message) (run.failed e))
    (hQ : (run.failed e).follower.failures < run.follower.limit → Q () (run.failed e)) :
    wp (recordFailure e) Q E run := by
  show wp (if run.follower.limit ≤ (run.failed e).follower.failures then
    throw (.tail run.follower.source.path.text e.message) else pure ()) Q E (run.failed e)
  split
  · next h => exact hE h
  · next h => exact hQ (Int.not_le.1 h)

end Unit

theorem wp_follower {Q : Follower → Run → Prop} : wp follower Q E run ↔ Q run.follower run :=
  Iff.rfl

theorem wp_ask {Q : Option IoError → Run → Prop} (kind : CallKind) :
    wp (ask kind) Q E run ↔ Q (run.refusal? kind) (run.asked kind) := Iff.rfl

/-! ### Lines -/

section Lines

variable {take : Taker} {Q : Unit → Run → Prop}

theorem wp_deliverLine {line : Bytes}
    (hE : ∀ f, take (lineText line) = some f → E f (run.log (.lineRefused (lineText line))))
    (hQ : take (lineText line) = none → Q () (run.log (.line (lineText line)))) :
    wp (deliverLine take line) Q E run := by
  unfold deliverLine
  dsimp only
  split
  · next f hf => exact hE f hf
  · next hn => exact hQ hn

/-- All lines are delivered, or those before the first one that is not taken. -/
theorem wp_deliverLines {lines : List Bytes}
    (hE : ∀ before l f, before ++ [l] <+: lines → take (lineText l) = some f →
      E f ((run.logLines before).log (.lineRefused (lineText l))))
    (hQ : Q () (run.logLines lines)) : wp (deliverLines take lines) Q E run := by
  induction lines generalizing run with
  | nil => exact hQ
  | cons l ls ih =>
    rw [deliverLines, wp_bind]
    refine wp_deliverLine (fun f hf => hE [] l f (by simp) hf) fun _ => ih ?_ ?_
    · intro before m f hm hf
      rw [← Run.logLines_cons]
      exact hE (l :: before) m f (by simpa using hm) hf
    · rwa [← Run.logLines_cons]

/-- The follower after a chunk was taken over. -/
def taking (f : Follower) (chunk : Bytes) : Follower :=
  { f with offset := f.offset + chunk.length, pending := Lines.unfinished (f.pending ++ chunk) }

theorem wp_deliver {chunk : Bytes}
    (h : wp (deliverLines take (Lines.complete (run.follower.pending ++ chunk))) Q E
      (run.put (taking run.follower chunk))) : wp (deliver take chunk) Q E run := h

end Lines

/-! ### Reading and closing -/

theorem remaining_eq_left {view : View} {f : Follower} {h : Handle} (hh : f.handle = some h) :
    remaining view f = h.left (view.data h.number).bytes := by
  rw [remaining, hh]
  rfl

theorem wp_close {Q : Unit → Run → Prop} (hopen : run.follower.handle.isSome)
    (hrefused : ∀ e, run.refusal? .close = some e →
      Q () (((run.asked .close).log (.closeRefused e.message)).put
        { run.follower with handle := none }))
    (hpassed : run.refusal? .close = none →
      Q () ((run.asked .close).put { run.follower with handle := none })) : wp close Q E run := by
  unfold close
  rw [wp_bind, wp_follower, if_pos hopen, wp_bind, wp_ask]
  split
  · next e he => exact hrefused e he
  · next hn => exact hpassed (Option.eq_none_iff_forall_ne_some.2 hn)

/-- Closing is done even if it is refused. -/
theorem wp_close_any : wp close
    (fun _ run' => run'.follower = { run.follower with handle := none } ∧
      run.refusals.Leaves run'.refusals ∧
      (run'.events = run.events ∨ ∃ error, run'.events = .closeRefused error :: run.events))
    (fun _ _ => False) run := by
  by_cases hh : run.follower.handle = none
  · unfold close
    have hnone : ¬ run.follower.handle.isSome := by simp [hh]
    rw [wp_bind, wp_follower, if_neg hnone, wp_pure]
    exact ⟨by rw [← hh], .refl _, .inl rfl⟩
  · have hsome : run.follower.handle.isSome := Option.isSome_iff_ne_none.2 hh
    refine wp_close hsome (fun e _ => ⟨rfl, Refusals.leaves_ask _ _, .inr ⟨_, rfl⟩⟩) fun _ => ?_
    exact ⟨rfl, Refusals.leaves_ask _ _, .inl rfl⟩

/-- Reading is refused, and the failure counted, or gives what comes next. -/
theorem wp_readChunk {view : View} {Q : Bytes → Run → Prop} {h : Handle}
    (hh : run.follower.handle = some h)
    (hE : ∀ e, run.refusal? .readNext = some e →
      wp (recordFailure e) (fun _ => Q []) E (run.asked .readNext))
    (hQ : run.refusal? .readNext = none →
      Q (h.read (view.data h.number).bytes chunkSize).1 ((run.asked .readNext).put
        { run.follower with
          handle := some (h.read (view.data h.number).bytes chunkSize).2, failures := 0 })) :
    wp (readChunk view) Q E run := by
  unfold readChunk
  rw [wp_bind, wp_follower, hh]
  dsimp only
  rw [wp_bind, wp_ask]
  split
  · next e he =>
    rw [wp_bind]
    exact hE e he
  · next hn =>
    exact hQ (Option.eq_none_iff_forall_ne_some.2 hn)

/-! ### Opening -/

section Opening

variable {view : View} {Q : Bool → Run → Prop}

theorem wp_abandon {e : IoError}
    (hrefused : ∀ e', run.refusal? .close = some e' → E (.io e') (run.asked .close))
    (hpassed : run.refusal? .close = none →
      wp (recordFailure e) (fun _ => Q false) E (run.asked .close)) :
    wp (abandon e) Q E run := by
  unfold abandon
  rw [wp_bind, wp_ask]
  split
  · next e' he => exact hrefused e' he
  · next hn =>
    rw [wp_bind]
    exact hpassed (Option.eq_none_iff_forall_ne_some.2 hn)

/-- Where reading begins in a file just opened, whose first octets have been read. -/
def standing (data : FileData) (number : Nat) (toEnd : Bool) : Handle :=
  let h := ((Handle.opened number).read data.bytes headSize).2
  if toEnd then h.seekEnd data.bytes.length else h.seek 0

/-- The follower with a file just opened. -/
def opening (f : Follower) (data : FileData) (number : Nat) (toEnd : Bool) : Follower :=
  { f with
    handle := some (standing data number toEnd), identity := some number, stamp := data.stamp
    head := ((Handle.opened number).read data.bytes headSize).1
    offset := (standing data number toEnd).position, pending := [], failures := 0 }

theorem wp_prepare {number : Nat} {toEnd : Bool}
    (hhead : ∀ e, run.refusal? .readHead = some e → wp (abandon e) Q E (run.asked .readHead))
    (hseek : run.refusal? .readHead = none → ∀ e, (run.asked .readHead).refusal? .seek = some e →
      wp (abandon e) Q E ((run.asked .readHead).asked .seek))
    (hopened : run.refusal? .readHead = none → (run.asked .readHead).refusal? .seek = none →
      Q true ((((run.asked .readHead).asked .seek).put
        (opening run.follower (view.data number) number toEnd)).log
          (.opened (standing (view.data number) number toEnd).position))) :
    wp (prepare view number toEnd) Q E run := by
  unfold prepare
  dsimp only
  rw [wp_bind, wp_ask]
  cases hr : run.refusal? .readHead with
  | some e => exact hhead e hr
  | none =>
    dsimp only
    rw [wp_bind, wp_ask]
    cases hs : (run.asked .readHead).refusal? .seek with
    | some e => exact hseek hr e hs
    | none => exact hopened hr hs

theorem wp_openFile {toEnd : Bool}
    (hawaiting : ∀ e, run.error? view .openFile = some e → e.errno = .noEntry →
      Q false ((run.asked .openFile).log .awaiting))
    (hfailed : ∀ e, run.error? view .openFile = some e → e.errno ≠ .noEntry →
      wp (recordFailure e) (fun _ => Q false) E (run.asked .openFile))
    (hname : ∀ why, view.target = .unnameable why → run.error? view .openFile = none →
      E why.failure (run.asked .openFile))
    (hfile : ∀ n, view.target = .file n → run.error? view .openFile = none →
      wp (prepare view n toEnd) Q E (run.asked .openFile)) :
    wp (openFile view toEnd) Q E run := by
  have hfail (e : IoError) (he : run.error? view .openFile = some e) :
      wp (if e.errno = .noEntry then emit .awaiting >>= fun _ => pure false
          else recordFailure e >>= fun _ => pure false) Q E (run.asked .openFile) := by
    split
    · next hn => exact hawaiting e he hn
    · next hn =>
      rw [wp_bind]
      exact hfailed e he hn
  unfold openFile
  rw [wp_bind, wp_follower]
  dsimp only
  rw [wp_bind, wp_ask]
  cases hr : run.refusal? .openFile with
  | some e => exact hfail e (Run.error?_of_refusal? hr)
  | none =>
    have herror : run.error? view .openFile = _ := Run.error?_of_passed hr
    unfold View.error? at herror
    dsimp only
    split
    · next why ht => exact hname why ht (by rw [herror, ht])
    · next e ht => exact hfail _ (by rw [herror, ht])
    · next n ht => exact hfail _ (by rw [herror, ht])
    · next n ht => exact hfile n ht (by rw [herror, ht])

end Opening

/-! ### Checking -/

section Checking

variable {view : View} {take : Taker}

theorem wp_statTarget_cases {Q : Except IoError (Nat × Stamp) → Run → Prop}
    (herror : ∀ e, run.error? view .stat = some e → Q (.error e) (run.asked .stat))
    (hname : ∀ why, view.target = .unnameable why → run.error? view .stat = none →
      E why.failure (run.asked .stat))
    (hfound : ∀ n, view.number? = some n → run.error? view .stat = none →
      Q (.ok (n, (view.data n).stamp)) (run.asked .stat)) :
    wp (statTarget view) Q E run := by
  unfold statTarget
  rw [wp_bind, wp_follower, wp_bind, wp_ask]
  cases hr : run.refusal? .stat with
  | some e => exact herror e (Run.error?_of_refusal? hr)
  | none =>
    have hpassed : run.error? view .stat = _ := Run.error?_of_passed hr
    unfold View.error? at hpassed
    cases ht : view.target with
    | unnameable why => exact hname why ht (by rw [hpassed, ht])
    | unreachable e => exact herror _ (by rw [hpassed, ht])
    | file n => exact hfound n (View.number?_of_file ht) (by rw [hpassed, ht])
    | directory n => exact hfound n (by rw [View.number?, ht]) (by rw [hpassed, ht])

/-- The run whose open file was moved to its start. -/
def atStart (run : Run) (h : Handle) : Run := (run.asked .seek).moved (h.seek 0)

/-- The run in which the beginning of the open file was read. -/
def behindHead (run : Run) (view : View) (h : Handle) : Run :=
  ((atStart run h).asked .readHead).moved ((h.seek 0).read (view.data h.number).bytes headSize).2

/-- A look at how the open file begins: three calls, each of which can be refused. -/
theorem wp_readHead {Q : Except IoError Bytes → Run → Prop} {h : Handle}
    (hh : run.follower.handle = some h)
    (hseek : ∀ e, run.refusal? .seek = some e → Q (.error e) (run.asked .seek))
    (hread : run.refusal? .seek = none → ∀ e, (atStart run h).refusal? .readHead = some e →
      Q (.error e) ((atStart run h).asked .readHead))
    (hback : run.refusal? .seek = none → (atStart run h).refusal? .readHead = none →
      ∀ e, (behindHead run view h).refusal? .seek = some e →
      Q (.error e) ((behindHead run view h).asked .seek))
    (hlooked : run.refusal? .seek = none → (atStart run h).refusal? .readHead = none →
      (behindHead run view h).refusal? .seek = none →
      Q (.ok ((h.seek 0).read (view.data h.number).bytes headSize).1)
        (((behindHead run view h).asked .seek).moved
        (((h.seek 0).read (view.data h.number).bytes headSize).2.seek run.follower.offset))) :
    wp (readHead view) Q E run := by
  unfold readHead
  rw [wp_bind, wp_follower, hh]
  dsimp only
  rw [wp_bind, wp_ask]
  split
  · next e he => exact hseek e he
  · next hs =>
    have hsought : run.refusal? .seek = none := Option.eq_none_iff_forall_ne_some.2 hs
    rw [wp_bind, wp_update, wp_bind, wp_ask]
    split
    · next e he => exact hread hsought e he
    · next hr =>
      have hread : (atStart run h).refusal? .readHead = none :=
        Option.eq_none_iff_forall_ne_some.2 hr
      rw [Handle.number_seek, wp_bind, wp_update, wp_bind, wp_ask]
      split
      · next e he => exact hback hsought hread e he
      · next hb => exact hlooked hsought hread (Option.eq_none_iff_forall_ne_some.2 hb)

/-- The run in which reading is about to begin again. -/
def restarting (run : Run) (stamp : Stamp) (head : Bytes) : Run :=
  (run.log (.noticed .truncated)).put { run.follower with offset := 0, pending := [], stamp, head }

theorem wp_restart {Q : Unit → Run → Prop} {stamp : Stamp} {head : Bytes}
    (hrefused : ∀ e, (restarting run stamp head).refusal? .seek = some e →
      E (.io e) ((restarting run stamp head).asked .seek))
    (hdone : (restarting run stamp head).refusal? .seek = none →
      Q () ((((restarting run stamp head).asked .seek).put
        { (restarting run stamp head).follower with
          handle := run.follower.handle.map (·.seek 0) }).log (.reopened .truncated))) :
    wp (restart stamp head) Q E run := by
  unfold restart
  rw [wp_bind, wp_emit, wp_bind, wp_update, wp_bind, wp_ask]
  split
  · next e he => exact hrefused e he
  · next hn => exact hdone (Option.eq_none_iff_forall_ne_some.2 hn)

/-- A check fails, finds another file, finds the same one unchanged, or looks at how it begins. -/
theorem wp_checkRotation {Q : Bool → Run → Prop}
    (hmissing : ∀ e, run.error? view .stat = some e → e.errno = .noEntry →
      Q false (run.asked .stat))
    (hfailed : ∀ e, run.error? view .stat = some e → e.errno ≠ .noEntry →
      wp (recordFailure e) (fun _ => Q false) E (run.asked .stat))
    (hname : ∀ why, view.target = .unnameable why → run.error? view .stat = none →
      E why.failure (run.asked .stat))
    (hother : ∀ n, view.number? = some n → run.error? view .stat = none →
      run.follower.identity ≠ some n →
      wp (rotate view take) (fun _ => Q true) E (run.asked .stat))
    (hsame : ∀ n, view.number? = some n → run.error? view .stat = none →
      run.follower.identity = some n →
      run.follower.offset ≤ (view.data n).bytes.length → (view.data n).stamp = run.follower.stamp →
        Q false (run.asked .stat))
    (hchanged : ∀ n, view.number? = some n → run.error? view .stat = none →
      run.follower.identity = some n →
      ¬ (run.follower.offset ≤ (view.data n).bytes.length ∧
        (view.data n).stamp = run.follower.stamp) →
        wp (readHead view) (fun found run' =>
          (∀ e, found = .error e → wp (recordFailure e) (fun _ => Q false) E run') ∧
          (∀ head, found = .ok head →
            run.follower.offset ≤ (view.data n).bytes.length ∧ run.follower.head <+: head →
              Q false (run'.put { run'.follower with stamp := (view.data n).stamp, head })) ∧
          (∀ head, found = .ok head →
            ¬ (run.follower.offset ≤ (view.data n).bytes.length ∧ run.follower.head <+: head) →
              wp (restart (view.data n).stamp head) (fun _ => Q true) E run'))
          E (run.asked .stat)) :
    wp (checkRotation view take) Q E run := by
  have hfail (e : IoError) (he : run.error? view .stat = some e) :
      wp (if e.errno ≠ .noEntry then recordFailure e >>= fun _ => pure false else pure false) Q E
        (run.asked .stat) := by
    split
    · next hn =>
      rw [wp_bind]
      exact hfailed e he hn
    · next hn => exact hmissing e he (not_not.1 hn)
  unfold checkRotation
  rw [wp_bind]
  refine wp_statTarget_cases hfail hname fun n hn hfound => ?_
  dsimp only
  rw [wp_bind, wp_follower]
  split
  · next hid =>
    rw [wp_bind]
    exact hother n hn hfound hid
  · next hid =>
    split
    · next hkept => exact hsame n hn hfound (not_not.1 hid) hkept.1 hkept.2
    · next hkept =>
      rw [wp_bind]
      refine (hchanged n hn hfound (not_not.1 hid) hkept).mono (fun found run' h => ?_)
        fun _ _ h => h
      obtain ⟨hrefused, hsame, hcut⟩ := h
      cases found with
      | error e =>
        rw [wp_bind]
        exact hrefused e rfl
      | ok head =>
        dsimp only
        split
        · next hp => exact hsame head rfl ⟨hp.1, List.isPrefixOf_iff_prefix.1 hp.2⟩
        · next hp =>
          rw [wp_bind]
          exact hcut head rfl fun h => hp ⟨h.1, List.isPrefixOf_iff_prefix.2 h.2⟩

end Checking

/-! ### Turns -/

theorem wp_turn {view : View} {take : Taker} {Q : Bool → Run → Prop}
    (hclosed : run.follower.handle = none →
      wp (openFile view (run.follower.firstOpen && !run.follower.source.fromStart))
        (fun opened run' =>
        if opened then
          wp (readOn view take) Q E (run'.put { run'.follower with firstOpen := false })
        else Q true (run'.put { run'.follower with firstOpen := false })) E run)
    (hopen : ∀ h, run.follower.handle = some h →
      wp (checkRotation view take) (fun done run' =>
        if done then Q false run' else wp (readOn view take) Q E run') E run) :
    wp (turn view take) Q E run := by
  unfold turn
  rw [wp_bind, wp_follower]
  by_cases hh : run.follower.handle = none
  · have hnone : run.follower.handle.isNone := Option.isNone_iff_eq_none.2 hh
    rw [if_pos hnone, wp_bind]
    refine (hclosed hh).mono (fun opened run' h => ?_) fun _ _ h => h
    rw [wp_bind, wp_update]
    cases opened with
    | false => exact h
    | true => exact h
  · obtain ⟨handle, hsome⟩ := Option.ne_none_iff_exists'.1 hh
    have hnotNone : ¬ run.follower.handle.isNone := by simp [hsome]
    rw [if_neg hnotNone, wp_bind]
    refine (hopen handle hsome).mono (fun done run' h => ?_) fun _ _ h => h
    cases done with
    | false => exact h
    | true => exact h

end Work

end LogRelay
