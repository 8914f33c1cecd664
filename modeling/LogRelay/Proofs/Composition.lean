import LogRelay.Proofs.Running

/-!
# What all work has in common

All work of a follower is put together from a few parts, so what these have in common and what is
kept when work follows work is true of a turn and of a poll (`Work.Pervades`), or of all work in
which reading does not begin again (`Work.Composes`).  Two such facts are shown here: the events
before a poll do not matter to it (`poll_behind`), and a run that goes on has delivered every line
that it offered (`offered_follow`).
-/

namespace LogRelay

namespace Work

/-- What is true of the parts of a follower's work, apart from that reading begins again, and of
work that follows work. -/
structure Composes (take : Taker) (P : ∀ {α : Type}, Work α → Prop) : Prop where
  pure {α : Type} (a : α) : P (pure a : Work α)
  throw {α : Type} (f : Failure) : P (throw f : Work α)
  bind {α β : Type} {w : Work β} {k : β → Work α} (hw : P w) (hk : ∀ b, P (k b)) : P (w >>= k)
  follower : P follower
  update (g : Follower → Follower) : P (update g)
  ask (kind : CallKind) : P (ask kind)
  emit {e : FollowEvent} (h : e.offered? = none) (hr : e.reopened? = none) : P (emit e)
  deliverLine (line : Bytes) : P (deliverLine take line)

/-- What is true of all parts of a follower's work, and of work that follows work. -/
structure Pervades (take : Taker) (P : ∀ {α : Type}, Work α → Prop) :
    Prop extends Composes take P where
  reopened (reason : Reopening) : P (Work.emit (.reopened reason))

namespace Composes

variable {take : Taker} {P : ∀ {α : Type}, Work α → Prop} {view : View}

theorem recordFailure (h : Composes take P) (e : IoError) : P (recordFailure e) := by
  refine h.bind (h.update _) fun _ => h.bind h.follower fun _ => h.bind (h.emit rfl rfl) fun _ => ?_
  split
  · exact h.throw _
  · exact h.pure _

theorem deliverLines (h : Composes take P) (lines : List Bytes) : P (deliverLines take lines) := by
  induction lines with
  | nil => exact h.pure _
  | cons l ls ih => exact h.bind (h.deliverLine l) fun _ => ih

theorem deliver (h : Composes take P) (chunk : Bytes) : P (deliver take chunk) :=
  h.bind h.follower fun _ => h.bind (h.update _) fun _ => h.deliverLines _

theorem close (h : Composes take P) : P close := by
  refine h.bind h.follower fun _ => ?_
  split
  · refine h.bind (h.ask _) fun refusal => ?_
    cases refusal with
    | none => exact h.update _
    | some e => exact h.bind (h.emit rfl rfl) fun _ => h.update _
  · exact h.pure _

theorem readChunk (h : Composes take P) : P (readChunk view) := by
  refine h.bind h.follower fun _ => ?_
  split
  · exact h.pure _
  · refine h.bind (h.ask _) fun refusal => ?_
    cases refusal with
    | none => exact h.bind (h.update _) fun _ => h.pure _
    | some e => exact h.bind (h.recordFailure e) fun _ => h.pure _

/-! ### Opening -/

theorem abandon (h : Composes take P) (e : IoError) : P (abandon e) := by
  refine h.bind (h.ask _) fun refusal => ?_
  cases refusal with
  | none => exact h.bind (h.recordFailure e) fun _ => h.pure _
  | some e => exact h.throw _

theorem prepare (h : Composes take P) (number : Nat) (toEnd : Bool) :
    P (prepare view number toEnd) := by
  refine h.bind (h.ask _) fun refusal => ?_
  cases refusal with
  | some e => exact h.abandon e
  | none =>
    refine h.bind (h.ask _) fun refusal => ?_
    cases refusal with
    | some e => exact h.abandon e
    | none => exact h.bind (h.update _) fun _ => h.bind (h.emit rfl rfl) fun _ => h.pure _

theorem openFile (h : Composes take P) (toEnd : Bool) : P (openFile view toEnd) := by
  have failed (e : IoError) : P
      (if e.errno = .noEntry then Work.emit .awaiting >>= fun _ => Pure.pure false
        else Work.recordFailure e >>= fun _ => Pure.pure false) := by
    split
    · exact h.bind (h.emit rfl rfl) fun _ => h.pure _
    · exact h.bind (h.recordFailure e) fun _ => h.pure _
  refine h.bind h.follower fun _ => h.bind (h.ask _) fun refusal => ?_
  cases refusal with
  | some e => exact failed e
  | none =>
    dsimp only
    split
    · exact h.throw _
    · exact failed ⟨_, some _⟩
    · exact failed ⟨.isDirectory, some _⟩
    · exact h.prepare _ _

/-! ### Checking -/

theorem readHead (h : Composes take P) : P (readHead view) := by
  refine h.bind h.follower fun _ => ?_
  split
  · exact h.pure _
  · refine h.bind (h.ask _) fun refusal => ?_
    cases refusal with
    | some e => exact h.pure _
    | none =>
      refine h.bind (h.update _) fun _ => h.bind (h.ask _) fun refusal => ?_
      cases refusal with
      | some e => exact h.pure _
      | none =>
        refine h.bind (h.update _) fun _ => h.bind (h.ask _) fun refusal => ?_
        cases refusal with
        | some e => exact h.pure _
        | none => exact h.bind (h.update _) fun _ => h.pure _

theorem statTarget (h : Composes take P) : P (statTarget view) := by
  refine h.bind h.follower fun _ => h.bind (h.ask _) fun refusal => ?_
  cases refusal with
  | some e => exact h.pure _
  | none =>
    dsimp only
    split
    · exact h.throw _
    · exact h.pure _
    · exact h.pure _
    · exact h.pure _

theorem drainChunks (h : Composes take P) (fuel : Nat) : P (drainChunks view take fuel) := by
  induction fuel with
  | zero => exact h.pure _
  | succ fuel ih =>
    refine h.bind h.readChunk fun _ => ?_
    split
    · exact h.bind (h.deliver _) fun _ => ih
    · exact h.pure _

theorem drain (h : Composes take P) : P (drain view take) := by
  refine h.bind h.follower fun _ => h.bind (h.drainChunks _) fun _ => h.bind h.follower fun _ => ?_
  split
  · exact h.bind (h.deliverLine _) fun _ => h.update _
  · exact h.pure _

theorem readOn (h : Composes take P) : P (readOn view take) := by
  refine h.bind h.readChunk fun _ => ?_
  split
  · exact h.pure _
  · exact h.bind (h.deliver _) fun _ => h.pure _

end Composes

namespace Pervades

variable {take : Taker} {P : ∀ {α : Type}, Work α → Prop} {view : View}

theorem rotate (h : Pervades take P) : P (rotate view take) :=
  h.bind (h.emit rfl rfl) fun _ => h.bind h.drain fun _ => h.bind h.close fun _ => h.reopened _

theorem restart (h : Pervades take P) (stamp : Stamp) (head : Bytes) : P (restart stamp head) := by
  refine h.bind (h.emit rfl rfl)
    fun _ => h.bind (h.update _) fun _ => h.bind (h.ask _) fun refusal => ?_
  cases refusal with
  | some e => exact h.throw _
  | none => exact h.bind (h.update _) fun _ => h.reopened _

theorem checkRotation (h : Pervades take P) : P (checkRotation view take) := by
  refine h.bind h.statTarget fun found => ?_
  cases found with
  | error e =>
    dsimp only
    split
    · exact h.bind (h.recordFailure e) fun _ => h.pure _
    · exact h.pure _
  | ok found =>
    refine h.bind h.follower fun _ => ?_
    split
    · exact h.bind h.rotate fun _ => h.pure _
    split
    · exact h.pure _
    refine h.bind h.readHead fun head => ?_
    cases head with
    | error e => exact h.bind (h.recordFailure e) fun _ => h.pure _
    | ok head =>
      dsimp only
      split
      · exact h.bind (h.update _) fun _ => h.pure _
      · exact h.bind (h.restart _ _) fun _ => h.pure _

theorem turn (h : Pervades take P) (view : View) : P (turn view take) := by
  refine h.bind h.follower fun _ => ?_
  split
  · refine h.bind (h.openFile _) fun _ => h.bind (h.update _) fun _ => ?_
    split
    · exact h.pure _
    · exact h.readOn
  · refine h.bind h.checkRotation fun _ => ?_
    split
    · exact h.pure _
    · exact h.readOn

end Pervades

end Work

/-! ## Earlier events -/

namespace Run

/-- The run with some events and calls before its own, the last one first. -/
def behind (run : Run) (es : List FollowEvent) (cs : List Call) : Run :=
  { run with events := run.events ++ es, calls := run.calls ++ cs }

end Run

namespace Work

variable {α β : Type} {take : Taker}

/-- What the work does, with some events and calls before it. -/
def outcomeBehind (es : List FollowEvent) (cs : List Call) :
    EStateM.Result Failure Run α → EStateM.Result Failure Run α
  | .ok a run => .ok a (run.behind es cs)
  | .error f run => .error f (run.behind es cs)

/-- The work does the same whatever happened before. -/
def Forgets (w : Work α) : Prop := ∀ run es cs, w (run.behind es cs) = outcomeBehind es cs (w run)

theorem Forgets.bind {w : Work β} {k : β → Work α} (hw : Forgets w) (hk : ∀ b, Forgets (k b)) :
    Forgets (w >>= k) := by
  intro run es cs
  show EStateM.bind w k (run.behind es cs) = outcomeBehind es cs (EStateM.bind w k run)
  unfold EStateM.bind
  rw [hw run es cs]
  cases w run with
  | ok b run' => exact hk b run' es cs
  | error f run' => rfl

theorem pervades_forgets (take : Taker) : Pervades take Forgets where
  pure _ _ _ _ := rfl
  throw _ _ _ _ := rfl
  bind := Forgets.bind
  follower _ _ _ := rfl
  update _ _ _ _ := rfl
  ask _ _ _ _ := rfl
  emit _ _ _ _ _ := rfl
  reopened _ _ _ _ := rfl
  deliverLine line run es cs := by
    unfold deliverLine
    cases take (lineText line) with
    | none => rfl
    | some f => rfl

/-! ## Calls that were made -/

/-- The work only adds to the calls. -/
def Recalls (w : Work α) : Prop := ∀ run,
  wp w (fun _ run' => run.calls <:+ run'.calls) (fun _ run' => run.calls <:+ run'.calls) run

theorem pervades_recalls (take : Taker) : Pervades take Recalls where
  pure _ _ := List.suffix_rfl
  throw _ _ := List.suffix_rfl
  bind hw hk run := by
    rw [wp_bind]
    refine (hw run).mono (fun b run' h => ?_) fun _ _ h => h
    exact (hk b run').mono (fun _ _ => h.trans) fun _ _ => h.trans
  follower _ := List.suffix_rfl
  update _ _ := List.suffix_rfl
  ask _ _ := List.suffix_cons _ _
  emit _ _ _ := List.suffix_rfl
  reopened _ _ := List.suffix_rfl
  deliverLine _ _ := wp_deliverLine (fun _ _ => List.suffix_rfl) fun _ => List.suffix_rfl

/-! ## Lines that were offered -/

/-- The work refuses no line unless it fails. -/
def Delivers (w : Work α) : Prop := ∀ run,
  wp w (fun _ run' => ∀ t, .lineRefused t ∈ run'.events → .lineRefused t ∈ run.events)
    (fun _ _ => True) run

theorem pervades_delivers (take : Taker) : Pervades take Delivers where
  pure _ _ := fun _ => id
  throw _ _ := trivial
  bind hw hk run := by
    rw [wp_bind]
    refine (hw run).mono (fun b run' h => ?_) fun _ _ => id
    exact (hk b run').mono (fun _ _ h' t ht => h t (h' t ht)) fun _ _ => id
  follower _ := fun _ => id
  update _ _ := fun _ => id
  ask _ _ := fun _ => id
  emit he _ run := by
    intro t ht
    obtain rfl | ht := List.mem_cons.1 ht
    · cases he
    · exact ht
  reopened _ run := by
    intro t ht
    obtain h | ht := List.mem_cons.1 ht
    · cases h
    · exact ht
  deliverLine line run := by
    refine wp_deliverLine (fun _ _ => trivial) fun _ t ht => ?_
    obtain ht | ht := List.mem_cons.1 ht
    · cases ht
    · exact ht

end Work

namespace Run

/-- The texts that were offered as lines, in their order. -/
def offered (run : Run) : List Text := run.events.reverse.filterMap FollowEvent.offered?

theorem offered_eq_lines {run : Run} (h : ∀ t, .lineRefused t ∉ run.events) :
    run.offered = run.lines := by
  refine List.filterMap_congr fun e he => ?_
  cases e with
  | lineRefused t => exact absurd (List.mem_reverse.1 he) (h t)
  | _ => rfl

end Run

namespace Follower

variable {view : View} {take : Taker} {run : Run} {o : Occasion} {os : List Occasion}

theorem turns_behind (fuel : Nat) (es : List FollowEvent) (cs : List Call) :
    turns view take fuel (run.behind es cs) =
      ⟨(turns view take fuel run).run.behind es cs, (turns view take fuel run).ending⟩ := by
  induction fuel generalizing run with
  | zero => rfl
  | succ fuel ih =>
    have hturn := (Work.pervades_forgets take).turn view run es cs
    rw [turns, turns, hturn]
    cases Work.turn view take run with
    | error f run' => rfl
    | ok waits run' =>
      cases waits with
      | true => rfl
      | false => exact ih

/-- What happened before a poll does not matter to it. -/
theorem poll_behind (run : Run) (es : List FollowEvent) (cs : List Call) :
    poll view take (run.behind es cs) =
      ⟨(poll view take run).run.behind es cs, (poll view take run).ending⟩ :=
  turns_behind _ es cs

theorem turns_delivers (fuel : Nat) (h : (turns view take fuel run).ending = .waits) :
    ∀ t, .lineRefused t ∈ (turns view take fuel run).run.events → .lineRefused t ∈ run.events := by
  induction fuel generalizing run with
  | zero => cases h
  | succ fuel ih =>
    have hturn := (Work.pervades_delivers take).turn view run
    unfold Work.wp at hturn
    rw [turns] at h ⊢
    cases hw : Work.turn view take run with
    | error f run' =>
      rw [hw] at h
      cases h
    | ok waits run' =>
      rw [hw] at h hturn
      cases waits with
      | true => exact hturn
      | false => exact fun t ht => hturn t (ih h t ht)

theorem follow_concat (h : (follow run os).ending = .waits) (o : Occasion) :
    follow run (os ++ [o]) = meet (follow run os).run o := by
  induction os generalizing run with
  | nil =>
    have hnil : follow run [] = ⟨run, .waits⟩ := rfl
    rw [hnil, List.nil_append, follow]
    cases hmeet : (meet run o).ending with
    | waits =>
      dsimp only
      rw [follow, ← hmeet]
    | fails f => rfl
    | unfinished => rfl
  | cons p os ih =>
    rw [follow] at h
    rw [List.cons_append, follow, follow]
    cases hmeet : (meet run p).ending with
    | waits =>
      simp only [hmeet] at h ⊢
      exact ih h
    | fails f => simp [hmeet] at h
    | unfinished => simp [hmeet] at h

theorem follow_waits_of_append {os' : List Occasion}
    (h : (follow run (os ++ os')).ending = .waits) : (follow run os).ending = .waits := by
  induction os generalizing run with
  | nil => rfl
  | cons o os ih =>
    rw [List.cons_append, follow] at h
    rw [follow]
    cases hmeet : (meet run o).ending with
    | waits =>
      simp only [hmeet] at h ⊢
      exact ih h
    | fails f => simp [hmeet] at h
    | unfinished => simp [hmeet] at h

theorem follow_delivers (h : (follow run os).ending = .waits) :
    ∀ t, .lineRefused t ∈ (follow run os).run.events → .lineRefused t ∈ run.events := by
  induction os generalizing run with
  | nil => exact fun _ ht => ht
  | cons o os ih =>
    rw [follow] at h ⊢
    cases hmeet : (meet run o).ending with
    | waits =>
      simp only [hmeet] at h ⊢
      exact fun t ht => turns_delivers _ hmeet t (ih h t ht)
    | fails f => simp [hmeet] at h
    | unfinished => simp [hmeet] at h

/-- A run that goes on has delivered every line that it offered. -/
theorem offered_follow {source : Source} {limit : Int}
    (h : (follow (start source limit) os).ending = .waits) :
    (follow (start source limit) os).run.offered = (follow (start source limit) os).run.lines := by
  refine Run.offered_eq_lines fun t ht => ?_
  have hstart := follow_delivers h t ht
  simp [start] at hstart

end Follower

end LogRelay
