import LogRelay.Proofs.Events

/-!
# Runs of a follower

A run meets one occasion after another (`Follower.follow`): what is seen of the file system, the
calls that will be refused and who takes the lines may all be different at each poll.

Whatever a follower meets, it goes on as the follower of the same source, keeps no line feed in what
is pending and offers nothing but lines (`Run.Continues`).  This is shown of every part of its work
(`Work.Tame`), hence of a poll and of a whole run (`follow_continues`).
-/

namespace LogRelay

/-! ## Occasions -/

/-- What a poll meets. -/
structure Occasion where
  view : View
  refusals : Refusals
  take : Taker

namespace Follower

/-- A poll on an occasion. -/
def meet (run : Run) (o : Occasion) : Poll := poll o.view o.take { run with refusals := o.refusals }

/-- One poll after another, until one does not end in a wait. -/
def follow (run : Run) : List Occasion → Poll
  | [] => ⟨run, .waits⟩
  | o :: os =>
    match (meet run o).ending with
    | .waits => follow (meet run o).run os
    | _ => meet run o

end Follower

/-! ## What work does to a run -/

namespace Run

/-- The run goes on as another one: of the same source, with no line feed in what is pending, and
nothing offered but lines. -/
structure Continues (before after : Run) : Prop where
  source : after.follower.source = before.follower.source
  limit : after.follower.limit = before.follower.limit
  pending : 10 ∉ after.follower.pending
  offers : ∀ t, after.Offers t → before.Offers t ∨ ∃ line, 10 ∉ line ∧ t = lineText line

/-- The run goes on within a poll, in which refusals are used up. -/
structure Works (before after : Run) : Prop extends Continues before after where
  leaves : before.refusals.Leaves after.refusals

variable {run run' run'' : Run}

theorem Continues.refl (h : 10 ∉ run.follower.pending) : run.Continues run :=
  ⟨rfl, rfl, h, fun _ ht => .inl ht⟩

theorem Continues.trans (h : run.Continues run') (h' : run'.Continues run'') :
    run.Continues run'' where
  source := h'.source.trans h.source
  limit := h'.limit.trans h.limit
  pending := h'.pending
  offers t ht := by
    obtain ht | hl := h'.offers t ht
    · exact h.offers t ht
    · exact .inr hl

theorem Works.refl (h : 10 ∉ run.follower.pending) : run.Works run := ⟨.refl h, .refl _⟩

theorem Works.trans (h : run.Works run') (h' : run'.Works run'') : run.Works run'' :=
  ⟨h.toContinues.trans h'.toContinues, h.leaves.trans h'.leaves⟩

end Run

/-! ## Every part of the work -/

namespace Work

variable {α β : Type} {run : Run}

/-- The work does to a run what any work may do, whether it is done or fails. -/
def Tame (w : Work α) (run : Run) : Prop :=
  10 ∉ run.follower.pending → wp w (fun _ => run.Works) (fun _ => run.Works) run

theorem Tame.bind {w : Work β} {k : β → Work α} (hw : Tame w run)
    (hk : ∀ b run', run.Works run' → Tame (k b) run') : Tame (w >>= k) run := by
  intro hp
  rw [wp_bind]
  refine (hw hp).mono (fun b run' h => ?_) fun _ _ h => h
  exact (hk b run' h h.pending).mono (fun _ _ => h.trans) fun _ _ => h.trans

theorem tame_pure (a : α) : Tame (pure a) run := fun hp => .refl hp

theorem tame_throw (f : Failure) : Tame (throw f : Work α) run := fun hp => .refl hp

theorem tame_emit {e : FollowEvent} (h : e.offered? = none) : Tame (emit e) run := by
  refine fun hp => ⟨⟨rfl, rfl, hp, fun t ht => ?_⟩, .refl _⟩
  obtain he | ht := Run.offers_log_iff.1 ht
  · rw [h] at he
    cases he
  · exact .inl ht

theorem tame_update {g : Follower → Follower} (hs : (g run.follower).source = run.follower.source)
    (hl : (g run.follower).limit = run.follower.limit)
    (hp : 10 ∉ run.follower.pending → 10 ∉ (g run.follower).pending) : Tame (update g) run :=
  fun h => ⟨⟨hs, hl, hp h, fun _ ht => .inl ht⟩, .refl _⟩

/-- Work that begins with a look at the follower is judged by what it sees. -/
theorem tame_follower_bind {k : Follower → Work α} (h : Tame (k run.follower) run) :
    Tame (follower >>= k) run := fun hp => by
  rw [wp_bind]
  exact h hp

theorem tame_ask (kind : CallKind) : Tame (ask kind) run := fun hp =>
  ⟨⟨rfl, rfl, hp, fun _ ht => .inl ht⟩, Refusals.leaves_ask _ kind⟩

theorem tame_recordFailure (e : IoError) : Tame (recordFailure e) run := by
  refine (tame_update rfl rfl fun hp => hp).bind fun _ _ _ => tame_follower_bind ?_
  refine (tame_emit rfl).bind fun _ _ _ => ?_
  split
  · exact tame_throw _
  · exact tame_pure _

section Lines

variable {take : Taker}

theorem tame_deliverLine {line : Bytes} (h : 10 ∉ line) : Tame (deliverLine take line) run := by
  intro hp
  have hline (e : FollowEvent) (he : e.offered? = some (lineText line)) :
      run.Works (run.log e) := by
    refine ⟨⟨rfl, rfl, hp, fun t ht => ?_⟩, .refl _⟩
    rw [Run.offers_log_iff, he, Option.some.injEq] at ht
    obtain rfl | ht := ht
    · exact .inr ⟨line, h, rfl⟩
    · exact .inl ht
  exact wp_deliverLine (fun f _ => hline _ rfl) fun _ => hline _ rfl

theorem tame_deliverLines {lines : List Bytes} (h : ∀ l ∈ lines, 10 ∉ l) :
    Tame (deliverLines take lines) run := by
  induction lines generalizing run with
  | nil => exact tame_pure _
  | cons l ls ih =>
    exact (tame_deliverLine (h l List.mem_cons_self)).bind fun _ _ _ =>
      ih fun m hm => h m (List.mem_cons_of_mem l hm)

theorem tame_deliver (chunk : Bytes) : Tame (deliver take chunk) run := by
  refine tame_follower_bind ((tame_update rfl rfl fun _ => ?_).bind fun _ _ _ => ?_)
  · exact Lines.notMem_unfinished _
  · exact tame_deliverLines fun l hl => Lines.notMem_of_mem_complete hl

end Lines

variable {view : View}

theorem tame_close : Tame close run := by
  refine tame_follower_bind ?_
  split
  · refine (tame_ask _).bind fun refusal _ _ => ?_
    cases refusal with
    | none => exact tame_update rfl rfl fun hp => hp
    | some e => exact (tame_emit rfl).bind fun _ _ _ => tame_update rfl rfl fun hp => hp
  · exact tame_pure _

theorem tame_readChunk : Tame (readChunk view) run := by
  refine tame_follower_bind ?_
  split
  · exact tame_pure _
  · refine (tame_ask _).bind fun refusal _ _ => ?_
    cases refusal with
    | none => exact (tame_update rfl rfl fun hp => hp).bind fun _ _ _ => tame_pure _
    | some e => exact (tame_recordFailure e).bind fun _ _ _ => tame_pure _

/-! ### Opening -/

theorem tame_abandon (e : IoError) : Tame (abandon e) run := by
  refine (tame_ask _).bind fun refusal _ _ => ?_
  cases refusal with
  | none => exact (tame_recordFailure e).bind fun _ _ _ => tame_pure _
  | some e => exact tame_throw _

theorem tame_prepare (number : Nat) (toEnd : Bool) : Tame (prepare view number toEnd) run := by
  refine (tame_ask _).bind fun refusal _ _ => ?_
  cases refusal with
  | some e => exact tame_abandon e
  | none =>
    refine (tame_ask _).bind fun refusal _ _ => ?_
    cases refusal with
    | some e => exact tame_abandon e
    | none =>
      exact (tame_update rfl rfl fun _ => List.not_mem_nil).bind fun _ _ _ =>
        (tame_emit rfl).bind fun _ _ _ => tame_pure _

theorem tame_openFile (toEnd : Bool) : Tame (openFile view toEnd) run := by
  have failed (e : IoError) (run : Run) : Tame
      (if e.errno = .noEntry then emit .awaiting >>= fun _ => pure false
        else recordFailure e >>= fun _ => pure false) run := by
    split
    · exact (tame_emit rfl).bind fun _ _ _ => tame_pure _
    · exact (tame_recordFailure e).bind fun _ _ _ => tame_pure _
  refine tame_follower_bind ((tame_ask _).bind fun refusal _ _ => ?_)
  cases refusal with
  | some e => exact failed e _
  | none =>
    dsimp only
    split
    · exact tame_throw _
    · exact failed ⟨_, some _⟩ _
    · exact failed ⟨.isDirectory, some _⟩ _
    · exact tame_prepare _ _

/-! ### Checking -/

theorem tame_readHead : Tame (readHead view) run := by
  refine tame_follower_bind ?_
  split
  · exact tame_pure _
  · refine (tame_ask _).bind fun refusal _ _ => ?_
    cases refusal with
    | some e => exact tame_pure _
    | none =>
      refine (tame_update rfl rfl fun hp => hp).bind fun _ _ _ => (tame_ask _).bind
        fun refusal _ _ => ?_
      cases refusal with
      | some e => exact tame_pure _
      | none =>
        refine (tame_update rfl rfl fun hp => hp).bind fun _ _ _ =>
          (tame_ask _).bind fun refusal _ _ => ?_
        cases refusal with
        | some e => exact tame_pure _
        | none => exact (tame_update rfl rfl fun hp => hp).bind fun _ _ _ => tame_pure _

theorem tame_statTarget : Tame (statTarget view) run := by
  refine tame_follower_bind ((tame_ask _).bind fun refusal _ _ => ?_)
  cases refusal with
  | some e => exact tame_pure _
  | none =>
    dsimp only
    split
    · exact tame_throw _
    · exact tame_pure _
    · exact tame_pure _
    · exact tame_pure _

theorem tame_drainChunks (take : Taker) (fuel : Nat) : Tame (drainChunks view take fuel) run := by
  induction fuel generalizing run with
  | zero => exact tame_pure _
  | succ fuel ih =>
    refine tame_readChunk.bind fun chunk _ _ => ?_
    split
    · exact (tame_deliver chunk).bind fun _ _ _ => ih
    · exact tame_pure _

theorem tame_drain (take : Taker) : Tame (drain view take) run := by
  refine tame_follower_bind ((tame_drainChunks take _).bind fun _ run' h => tame_follower_bind ?_)
  split
  · exact (tame_deliverLine h.pending).bind fun _ _ _ =>
      tame_update rfl rfl fun _ => List.not_mem_nil
  · exact tame_pure _

theorem tame_rotate (take : Taker) : Tame (rotate view take) run :=
  (tame_emit rfl).bind fun _ _ _ => (tame_drain take).bind fun _ _ _ =>
    tame_close.bind fun _ _ _ => tame_emit rfl

theorem tame_restart (stamp : Stamp) (head : Bytes) : Tame (restart stamp head) run := by
  refine (tame_emit rfl).bind fun _ _ _ => (tame_update rfl rfl fun _ => List.not_mem_nil).bind
    fun _ _ _ => (tame_ask _).bind fun refusal _ _ => ?_
  cases refusal with
  | some e => exact tame_throw _
  | none =>
    exact (tame_update rfl rfl fun hp => hp).bind fun _ _ _ => tame_emit rfl

theorem tame_checkRotation (take : Taker) : Tame (checkRotation view take) run := by
  refine tame_statTarget.bind fun found _ _ => ?_
  cases found with
  | error e =>
    dsimp only
    split
    · exact (tame_recordFailure e).bind fun _ _ _ => tame_pure _
    · exact tame_pure _
  | ok found =>
    refine tame_follower_bind ?_
    split
    · exact (tame_rotate take).bind fun _ _ _ => tame_pure _
    split
    · exact tame_pure _
    refine tame_readHead.bind fun head _ _ => ?_
    cases head with
    | error e => exact (tame_recordFailure e).bind fun _ _ _ => tame_pure _
    | ok head =>
      dsimp only
      split
      · exact (tame_update rfl rfl fun hp => hp).bind fun _ _ _ => tame_pure _
      · exact (tame_restart _ _).bind fun _ _ _ => tame_pure _

theorem tame_readOn (take : Taker) : Tame (readOn view take) run := by
  refine tame_readChunk.bind fun chunk _ _ => ?_
  split
  · exact tame_pure _
  · exact (tame_deliver chunk).bind fun _ _ _ => tame_pure _

theorem tame_turn (take : Taker) : Tame (turn view take) run := by
  refine tame_follower_bind ?_
  split
  · refine (tame_openFile _).bind fun opened _ _ =>
      (tame_update rfl rfl fun hp => hp).bind fun _ _ _ => ?_
    split
    · exact tame_pure _
    · exact tame_readOn take
  · refine (tame_checkRotation take).bind fun done _ _ => ?_
    split
    · exact tame_pure _
    · exact tame_readOn take

end Work

/-! ## Polls and runs -/

/-- A poll that waits in a run with `W` or fails with `E`; it does not leave turns to take. -/
inductive Poll.Ends (p : Poll) (W : Run → Prop) (E : Failure → Run → Prop) : Prop
  | waits (h : p.ending = .waits) (hW : W p.run) : p.Ends W E
  | fails {f : Failure} (h : p.ending = .fails f) (hE : E f p.run) : p.Ends W E

theorem Poll.Ends.mono {p : Poll} {W W' : Run → Prop} {E E' : Failure → Run → Prop} (h : p.Ends W E)
    (hW : ∀ run, W run → W' run) (hE : ∀ f run, E f run → E' f run) : p.Ends W' E' := by
  cases h with
  | waits hp h => exact .waits hp (hW _ h)
  | fails hp h => exact .fails hp (hE _ _ h)

instance (p : Poll) (W : Run → Prop)
    (E : Failure → Run → Prop) [DecidablePred W] [∀ f, DecidablePred (E f)] :
    Decidable (p.Ends W E) :=
  match hp : p.ending with
  | .waits => decidable_of_iff (W p.run) ⟨.waits hp, fun h => by
      cases h with
      | waits _ h => exact h
      | fails hf _ => simp [hp] at hf⟩
  | .fails f => decidable_of_iff (E f p.run) ⟨.fails hp, fun h => by
      cases h with
      | waits hw _ => simp [hp] at hw
      | fails hf h =>
        obtain rfl := Ending.fails.inj (hp.symm.trans hf)
        exact h⟩
  | .unfinished => .isFalse fun h => by
      cases h with
      | waits hw _ => simp [hp] at hw
      | fails hf _ => simp [hp] at hf

namespace Follower

variable {view : View} {take : Taker} {run : Run} {W : Run → Prop} {E : Failure → Run → Prop}

theorem turns_succ_ends {fuel : Nat}
    (h : Work.wp (Work.turn view take)
      (fun waits run' => if waits then W run' else (turns view take fuel run').Ends W E) E run) :
    (turns view take (fuel + 1) run).Ends W E := by
  unfold Work.wp at h
  rw [turns]
  split
  · next run' ht =>
    rw [ht] at h
    exact .waits rfl h
  · next run' ht =>
    rw [ht] at h
    exact h
  · next f run' ht =>
    rw [ht] at h
    exact .fails rfl h

/-- The turns of a poll come to an end if something gets less in each that is not the last. -/
theorem turns_ends {I : Run → Prop} (μ : Run → Nat)
    (hturn : ∀ run, I run → Work.wp (Work.turn view take)
      (fun waits run' => if waits then W run' else I run' ∧ μ run' < μ run) E run)
    {fuel : Nat} (hI : I run) (hfuel : μ run < fuel) : (turns view take fuel run).Ends W E := by
  induction fuel generalizing run with
  | zero => exact absurd hfuel (Nat.not_lt_zero _)
  | succ fuel ih =>
    refine turns_succ_ends ((hturn run hI).mono (fun waits run' h => ?_) fun _ _ h => h)
    cases waits with
    | true => exact h
    | false =>
      obtain ⟨hI', hless⟩ : I run' ∧ μ run' < μ run := h
      exact ih hI' (by omega)

theorem turns_works (hp : 10 ∉ run.follower.pending) (fuel : Nat) :
    run.Works (turns view take fuel run).run := by
  induction fuel generalizing run with
  | zero => exact .refl hp
  | succ fuel ih =>
    have h : Work.wp (Work.turn view take) (fun _ => run.Works) (fun _ => run.Works) run :=
      Work.tame_turn take hp
    unfold Work.wp at h
    rw [turns]
    split
    · next run' ht => simpa [ht] using h
    · next run' ht =>
      rw [ht] at h
      exact h.trans (ih h.pending)
    · next f run' ht =>
      rw [ht] at h
      exact h

theorem meet_continues (hp : 10 ∉ run.follower.pending) (o : Occasion) :
    run.Continues (meet run o).run := by
  have hp' : 10 ∉ ({ run with refusals := o.refusals } : Run).follower.pending := hp
  have h : Run.Works { run with refusals := o.refusals } (meet run o).run := turns_works hp' _
  exact ⟨h.source, h.limit, h.pending, h.offers⟩

theorem follow_continues (hp : 10 ∉ run.follower.pending) (os : List Occasion) :
    run.Continues (follow run os).run := by
  induction os generalizing run with
  | nil => exact .refl hp
  | cons o os ih =>
    have h := meet_continues hp o
    rw [follow]
    split
    · exact h.trans (ih h.pending)
    · exact h

theorem follow_nil_ends (h : W run) : (follow run []).Ends W E := .waits rfl h

theorem follow_cons_ends {o : Occasion} {os : List Occasion}
    (h : (meet run o).Ends (fun run' => (follow run' os).Ends W E) E) :
    (follow run (o :: os)).Ends W E := by
  rw [follow]
  cases h with
  | waits hp h =>
    rw [hp]
    exact h
  | fails hp h =>
    rw [hp]
    exact .fails hp h

theorem follow_append_ends {os os' : List Occasion}
    (h : (follow run os).Ends (fun run' => (follow run' os').Ends W E) E) :
    (follow run (os ++ os')).Ends W E := by
  induction os generalizing run with
  | nil =>
    cases h with
    | waits _ h => exact h
    | fails hp _ => cases hp
  | cons o os ih =>
    rw [follow] at h
    rw [List.cons_append, follow]
    split at h
    · exact ih h
    · next hw =>
      cases h with
      | waits hp _ => exact absurd hp hw
      | fails hp h => exact .fails hp h

/-- Whatever a follower meets, it offers nothing but texts of lines. -/
theorem exists_line_of_offers {source : Source} {limit : Int} {os : List Occasion} {t : Text}
    (h : (follow (start source limit) os).run.Offers t) :
    ∃ line, 10 ∉ line ∧ t = lineText line := by
  have hc : (start source limit).Continues (follow (start source limit) os).run :=
    follow_continues List.not_mem_nil os
  obtain ⟨e, he, ht⟩ | hl := hc.offers t h
  · simp only [start, List.mem_singleton] at he
    rw [he] at ht
    cases ht
  · exact hl

end Follower

end LogRelay
