import LogRelay.Proofs.Appending
import LogRelay.Proofs.Turns

/-!
# Where reading begins

A file that is there at the start is read from its end, but only if the very first attempt opens it:
one refused call, and the next attempt reads the file from its beginning (`beginning`).
`follow_new_content` says this of a file that is only appended to, whichever calls are refused and
however many attempts it takes.

Here no kind of call is spared.  What is said of a run holds as long as it has not strayed in a
check: then the handle is not where the follower takes it to be.
-/

namespace LogRelay

/-! ## Attempts to open -/

namespace Occasion

/-- The file that an attempt finds and can prepare for reading. -/
def opened? (o : Occasion) : Option Nat :=
  match (o.refusals.ask .openFile).1, (o.refusals.ask .readHead).1, (o.refusals.ask .seek).1,
      o.view.target with
  | none, none, none, .file n => some n
  | _, _, _, _ => none

/-- An attempt on the occasion opens the file. -/
structure Opens (o : Occasion) (n : Nat) : Prop where
  target : o.view.target = .file n
  openFile : (o.refusals.ask .openFile).1 = none
  readHead : (o.refusals.ask .readHead).1 = none
  seek : (o.refusals.ask .seek).1 = none

variable {o : Occasion} {n : Nat}

theorem opened?_eq_some_iff : o.opened? = some n ↔ o.Opens n := by
  unfold opened?
  constructor
  · intro h
    split at h
    · next hf hr hs ht => exact ⟨ht.trans (congrArg Target.file (Option.some.inj h)), hf, hr, hs⟩
    · cases h
  · intro h
    rw [h.target, h.openFile, h.readHead, h.seek]

instance (o : Occasion) (n : Nat) : Decidable (o.Opens n) := decidable_of_iff _ opened?_eq_some_iff

theorem opened?_eq_none (h : ¬ o.Opens n)
    (hpath : o.view.target = .file n ∨ ∃ e, o.view.target = .unreachable e) : o.opened? = none := by
  refine Option.eq_none_iff_forall_ne_some.2 fun m hm => ?_
  have hopens := opened?_eq_some_iff.1 hm
  obtain ht | ⟨e, ht⟩ := hpath
  · obtain rfl := Target.file.inj (ht.symm.trans hopens.target)
    exact h hopens
  · rw [hopens.target] at ht
    cases ht

theorem opens_iff {run : Run} :
    Run.Opens { run with refusals := o.refusals } o.view n ↔ o.Opens n :=
  ⟨fun h => ⟨h.target, Option.map_eq_none_iff.1 h.openFile, Option.map_eq_none_iff.1 h.readHead,
      Option.map_eq_none_iff.1 h.seek⟩,
    fun h => ⟨h.target, Option.map_eq_none_iff.2 h.openFile, Option.map_eq_none_iff.2 h.readHead,
      Option.map_eq_none_iff.2 h.seek⟩⟩

end Occasion

/-- Where reading begins: behind the octets of a file that the first attempt opens, unless these are
to be read too, and at the beginning of a file that a later attempt opens. -/
def beginning (source : Source) : List Occasion → Nat
  | [] => 0
  | o :: _ =>
    match o.opened? with
    | some n => if source.fromStart then 0 else (o.view.data n).bytes.length
    | none => 0

/-- A file is at the path or none can be reached, and once the file is there it is only appended to;
any call may be refused. -/
structure Extends (n : Nat) (os : List Occasion) : Prop where
  paths : ∀ o ∈ os, o.view.target = .file n ∨ ∃ e, o.view.target = .unreachable e
  grows : ∀ o rest, o :: rest <:+ os → o.view.target = .file n → Grows n (o :: rest)

theorem Extends.tail {n : Nat} {o : Occasion} {os : List Occasion} (h : Extends n (o :: os)) :
    Extends n os where
  paths p hp := h.paths p (List.mem_cons_of_mem o hp)
  grows p rest hsuffix := h.grows p rest (hsuffix.trans (List.suffix_cons o os))

theorem Grows.extends {n : Nat} {os : List Occasion} (hgrows : Grows n os)
    (hpaths : ∀ o ∈ os, o.view.target = .file n ∨ ∃ e, o.view.target = .unreachable e) :
    Extends n os where
  paths := hpaths
  grows _ _ hsuffix _ := hgrows.sublist hsuffix.sublist

/-- Reading was never begun again, nothing was delivered while no file was open, and once it is open
what was delivered mirrors the file as the last poll met it. -/
structure Run.Relays (run : Run) (n start : Nat) (os : List Occasion) : Prop where
  reopens : ∀ reason, run.reopens reason = 0
  closed : run.follower.handle = none → run.lines = []
  opened : run.follower.handle ≠ none → ∃ o, os.getLast? = some o ∧
    run.Mirrors start (o.view.data n).bytes ∧ run.Rests o (o.view.data n).bytes

/-- Some of the lines of the file were delivered, each once and in their order. -/
structure Run.RelaysPart (run : Run) (n start : Nat) (os : List Occasion) : Prop where
  reopens : ∀ reason, run.reopens reason = 0
  lines : ∃ o ∈ os, run.lines <+: (Lines.complete ((o.view.data n).bytes.drop start)).map lineText

/-- No file is open, and the one that will be opened is read from the start of the stretch. -/
structure Run.Expects (run : Run) (s : Stretch) (os : List Occasion) : Prop extends
    run.Waits s.earlier s.reopens where
  start : s.start = if run.follower.firstOpen then beginning run.follower.source os else 0

namespace Follower

variable {run : Run} {s : Stretch} {bytes : Bytes} {o : Occasion} {os : List Occasion}

theorem expects_start (source : Source) (limit : Int) (n : Nat) (os : List Occasion) :
    (start source limit).Expects ⟨n, beginning source os, [], fun _ => 0⟩ os where
  handle := rfl
  pending := List.not_mem_nil
  lines := rfl
  reopens reason := Run.reopens_eq_count _ reason
  start := rfl

/-! ## A poll -/

/-- A turn of a run that has strayed goes on or ends as one that has. -/
theorem turn_strayed {W I : Run → Prop} {E : Failure → Run → Prop} (h : run.Strayed)
    (hW : ∀ run', run'.Strayed → W run') (hI : ∀ run', run'.Strayed → I run')
    (hE : ∀ f run', run'.Strayed → E f run') :
    Work.wp (Work.turn o.view o.take)
      (fun waits run' => if waits then W run' else I run') E run := by
  refine (Work.wp_strayed ((Work.pervades_recalls o.take).turn o.view) h).mono
    (fun waits run' h' => ?_) hE
  cases waits with
  | true => exact hW run' h'
  | false => exact hI run' h'

/-- A turn with a file open reads on in it, unless it strays. -/
theorem turn_reads {W I : Run → Prop} {E : Failure → Run → Prop} (hreads : run.Reads s bytes)
    (hi : o.Within run) (hb : (o.view.data s.number).bytes = bytes)
    (hpath : o.view.target = .file s.number ∨ ∃ e, o.view.target = .unreachable e)
    (hW : ∀ run', (run'.Reads s bytes ∧ run'.Rests o bytes) ∨ run'.Strayed → W run')
    (hI : ∀ run', (run'.Reads s bytes ∧ o.Within run') ∨ run'.Strayed → I run')
    (hE : ∀ f run', o.Stops s bytes f run' ∨ run'.Strayed → E f run') :
    Work.wp (Work.turn o.view o.take)
      (fun waits run' => if waits then W run' else I run') E run := by
  refine (Work.wp_turn_reads hreads hi hb hpath).mono (fun waits run' h => ?_)
    fun f run' h => hE f run' (h.imp_right (·.strayed))
  cases waits with
  | true => exact hW run' (h.imp (fun h => ⟨h.1.1, h.2⟩) (·.strayed))
  | false => exact hI run' (h.imp (·.1) (·.strayed))

/-- A poll with a file open reads all that has been added to it, or strays. -/
theorem meet_reads_or_strays (hr : run.Reads s bytes) (hsound : run.follower.Sound)
    (hpath : o.view.target = .file s.number ∨ ∃ e, o.view.target = .unreachable e)
    (hgrow : bytes <+: (o.view.data s.number).bytes) :
    (meet run o).Ends
      (fun run' => ((run'.Reads s (o.view.data s.number).bytes ∧
        run'.Rests o (o.view.data s.number).bytes) ∨
        run'.Strayed) ∧ run'.follower.Sound ∧ 10 ∉ run'.follower.pending)
      (fun f run' => o.Stops s (o.view.data s.number).bytes f run' ∨ run'.Strayed) := by
  have hbegun : Run.Reads { run with refusals := o.refusals } s (o.view.data s.number).bytes :=
    (hr.mono hgrow).schedule o.refusals
  refine poll_ends
    (I := fun run' => (run'.Reads s (o.view.data s.number).bytes ∧ o.Within run') ∨ run'.Strayed)
    (fun run' h => ?_) (.inl ⟨hbegun, o.within_schedule hr.notMem_pending⟩) hsound hr.notMem_pending
  obtain ⟨hreads, hi⟩ | hstrayed := h
  · exact turn_reads hreads hi rfl hpath (fun _ => id) (fun _ => id) fun _ _ => id
  · exact turn_strayed hstrayed (fun _ => .inr) (fun _ => .inr) fun _ _ => .inr

/-- A poll without a file reads all of the file that it opens, or goes on waiting. -/
theorem meet_expects (h : run.Expects s (o :: os))
    (hpath : o.view.target = .file s.number ∨ ∃ e, o.view.target = .unreachable e) :
    (meet run o).Ends
      (fun run' => ((o.Opens s.number ∧ run'.Reads s (o.view.data s.number).bytes ∧
            run'.Rests o (o.view.data s.number).bytes) ∨
              (¬ o.Opens s.number ∧ run'.Expects s os) ∨ run'.Strayed) ∧
        run'.follower.Sound ∧ 10 ∉ run'.follower.pending)
      (fun f run' => o.Stops s (o.view.data s.number).bytes f run' ∨ run'.Strayed) := by
  have hsound : run.follower.Sound := by
    intro handle hh
    rw [h.handle] at hh
    cases hh
  set begun : Run := { run with refusals := o.refusals } with hbegun
  have hstart (hopens : begun.Opens o.view s.number) : s.start =
      if begun.follower.firstOpen && !begun.follower.source.fromStart then
        (o.view.data s.number).bytes.length
      else 0 := by
    rw [h.start, beginning, Occasion.opened?_eq_some_iff.2 (Occasion.opens_iff.1 hopens)]
    cases run.follower.firstOpen <;> cases run.follower.source.fromStart <;> rfl
  refine poll_ends (I := fun run' => run' = begun ∨
      (o.Opens s.number ∧ run'.Reads s (o.view.data s.number).bytes ∧ o.Within run') ∨ run'.Strayed)
    (fun run' h' => ?_) (.inl rfl) hsound h.pending
  obtain rfl | ⟨hopens, hreads, hi⟩ | hstrayed := h'
  · refine (Work.wp_turn_waits (h.toWaits.schedule o.refusals) (o.within_schedule h.pending)
      hpath hstart).mono (fun waits run'' h' => ?_) fun f run'' h' => .inl h'
    obtain ⟨hi, ⟨hopens, hreads, hrests⟩ | ⟨rfl, hno, hwaits, hfirst⟩⟩ := h'
    · have hopens' := Occasion.opens_iff.1 hopens
      cases waits with
      | true => exact .inl ⟨hopens', hreads, hrests rfl⟩
      | false => exact .inr (.inl ⟨hopens', hreads, hi⟩)
    · have hno' : ¬ o.Opens s.number := fun hopens => hno (Occasion.opens_iff.2 hopens)
      have hzero : s.start = 0 := by
        rw [h.start, beginning, Occasion.opened?_eq_none hno' hpath]
        exact ite_self 0
      exact .inr (.inl ⟨hno', hwaits, by rw [hfirst, hzero]; rfl⟩)
  · refine turn_reads hreads hi rfl hpath (fun run'' h' => ?_) (fun run'' h' => ?_) fun _ _ => id
    · obtain hread | hstrayed := h'
      · exact .inl ⟨hopens, hread⟩
      · exact .inr (.inr hstrayed)
    · obtain hread | hstrayed := h'
      · exact .inr (.inl ⟨hopens, hread⟩)
      · exact .inr (.inr hstrayed)
  · exact turn_strayed hstrayed (fun _ h' => .inr (.inr h')) (fun _ h' => .inr (.inr h'))
      fun _ _ => .inr

/-! ## One poll after another -/

/-- A run that has strayed goes on or ends as one that has. -/
theorem follow_strayed (h : run.Strayed) (hsound : run.follower.Sound)
    (hp : 10 ∉ run.follower.pending)
    (os : List Occasion) :
    (follow run os).Ends (fun run' => run'.Strayed) fun _ run' => run'.Strayed := by
  induction os generalizing run with
  | nil => exact follow_nil_ends h
  | cons o os ih =>
    have hmeet : (meet run o).Ends
        (fun run' => run'.Strayed ∧ run'.follower.Sound ∧ 10 ∉ run'.follower.pending)
        fun _ run' => run'.Strayed := by
      exact poll_ends (I := fun run' => run'.Strayed)
        (fun run' h' => turn_strayed h' (fun _ => id) (fun _ => id) fun _ _ => id) h hsound hp
    exact follow_cons_ends (hmeet.mono (fun run' h' => ih h'.1 h'.2.1 h'.2.2) fun _ _ h' => h')

/-- Polls that meet a file with more and more octets read all that it holds on the last of them. -/
theorem follow_reads_or_strays (h : run.Reads s (o.view.data s.number).bytes)
    (hrests : run.Rests o (o.view.data s.number).bytes) (hsound : run.follower.Sound)
    (hpaths : ∀ p ∈ os, p.view.target = .file s.number ∨ ∃ e, p.view.target = .unreachable e)
    (hgrows : Grows s.number (o :: os)) :
    (follow run os).Ends
      (fun run' => (run'.Reads s ((os.getLastD o).view.data s.number).bytes ∧
        run'.Rests (os.getLastD o) ((os.getLastD o).view.data s.number).bytes) ∨ run'.Strayed)
      (fun f run' => (∃ p ∈ os, p.Stops s (p.view.data s.number).bytes f run') ∨ run'.Strayed) := by
  induction os generalizing run o with
  | nil => exact follow_nil_ends (.inl ⟨h, hrests⟩)
  | cons p os ih =>
    obtain ⟨hnext, hgrows'⟩ := List.pairwise_cons.1 hgrows
    have hmeet :=
      meet_reads_or_strays h hsound (hpaths p List.mem_cons_self) (hnext p List.mem_cons_self)
    refine follow_cons_ends (hmeet.mono (fun run' h' => ?_) fun f run' h' => ?_)
    · obtain ⟨⟨hreads, hrests'⟩ | hstrayed, hsound', hp'⟩ := h'
      · rw [List.getLastD_cons]
        refine (ih hreads hrests' hsound'
          (fun q hq => hpaths q (List.mem_cons_of_mem p hq)) hgrows').mono
          (fun _ h => h) fun f run'' h'' => h''.imp_left fun ⟨q, hq, hstops⟩ => ?_
        exact ⟨q, List.mem_cons_of_mem p hq, hstops⟩
      · exact (follow_strayed hstrayed hsound' hp' os).mono (fun _ h => .inr h) fun _ _ h => .inr h
    · exact h'.imp_left fun hstops => ⟨p, List.mem_cons_self, hstops⟩

/-- A follower that waits for a file reads all that it holds on the last occasion, or waits on. -/
theorem follow_expects (h : run.Expects s os) (ha : Extends s.number os) :
    (follow run os).Ends
      (fun run' => (run'.Expects s [] ∨ ∃ o, os.getLast? = some o ∧
        run'.Reads s (o.view.data s.number).bytes ∧ run'.Rests o (o.view.data s.number).bytes) ∨
        run'.Strayed)
      (fun f run' => (∃ o ∈ os, o.Stops s (o.view.data s.number).bytes f run') ∨ run'.Strayed) := by
  induction os generalizing run with
  | nil => exact follow_nil_ends (.inl (.inl h))
  | cons o os ih =>
    have hmeet := meet_expects h (ha.paths o List.mem_cons_self)
    refine follow_cons_ends (hmeet.mono (fun run' h' => ?_) fun f run' h' => ?_)
    · obtain ⟨⟨hopens, hreads, hrests⟩ | ⟨-, hexpects⟩ | hstrayed, hsound', hp'⟩ := h'
      · have hgrows := ha.grows o os List.suffix_rfl hopens.target
        refine (follow_reads_or_strays hreads hrests hsound' ha.tail.paths hgrows).mono
          (fun run'' h'' => h''.imp_left fun hkept => .inr ?_) fun f run'' h'' => h''.imp_left
          fun ⟨q, hq, hstops⟩ => ?_
        · rw [List.getLastD_eq_getLast?] at hkept
          exact ⟨_, List.getLast?_cons, hkept⟩
        · exact ⟨q, List.mem_cons_of_mem o hq, hstops⟩
      · refine (ih hexpects ha.tail).mono (fun run'' h'' => h''.imp_left fun h => h.imp_right ?_)
          fun f run'' h'' => h''.imp_left
            fun ⟨q, hq, hstops⟩ => ⟨q, List.mem_cons_of_mem o hq, hstops⟩
        rintro ⟨p, hlast, hreads⟩
        refine ⟨p, ?_, hreads⟩
        rw [List.getLast?_cons, hlast]
        rfl
      · exact (follow_strayed hstrayed hsound' hp' os).mono (fun _ h => .inr h) fun _ _ h => .inr h
    · exact h'.imp_left fun hstops => ⟨o, List.mem_cons_self, hstops⟩

/-- A file that is only appended to is relayed from where reading begins, whichever calls are
refused, while the run has not strayed. -/
theorem follow_extends {source : Source} {limit : Int} {n : Nat} (h : Extends n os) :
    (follow (start source limit) os).Ends
      (fun run => run.Relays n (beginning source os) os ∨ run.Strayed)
      fun _ run => run.RelaysPart n (beginning source os) os ∨ run.Strayed := by
  refine (follow_expects (expects_start source limit n os) h).mono
    (fun run h' => h'.imp_left fun h' => ?_)
    fun f run h' => h'.imp_left fun ⟨o, ho, hstops⟩ => ⟨hstops.reopens, o, ho, hstops.lines⟩
  obtain hexpects | ⟨o, hlast, hreads, hrests⟩ := h'
  · exact ⟨hexpects.reopens, fun _ => hexpects.lines, fun hopen => absurd hexpects.handle hopen⟩
  · refine ⟨hreads.reopens, fun hclosed => ?_, fun _ => ⟨o, hlast, hreads.mirrors, hrests⟩⟩
    obtain ⟨handle, hh, -⟩ := hreads.handle
    rw [hclosed] at hh
    cases hh

/-- Of a file that is there at the start and only appended to, what is added is delivered, and
nothing else, if the first attempt opens it.  If that attempt is refused, or any part of it, the
file is read from its beginning, however many attempts follow. -/
theorem follow_new_content {source : Source} {limit : Int} {n : Nat}
    (hnew : source.fromStart = false)
    (hpaths : ∀ p ∈ o :: os, p.view.target = .file n ∨ ∃ e, p.view.target = .unreachable e)
    (hgrows : Grows n (o :: os)) :
    (follow (start source limit) (o :: os)).Ends
      (fun run => run.Relays n (if o.Opens n then (o.view.data n).bytes.length else 0) (o :: os) ∨
        run.Strayed)
      fun _ run =>
        run.RelaysPart n (if o.Opens n then (o.view.data n).bytes.length else 0) (o :: os) ∨
        run.Strayed := by
  have hstart : beginning source (o :: os) =
      if o.Opens n then (o.view.data n).bytes.length else 0 := by
    by_cases hopens : o.Opens n
    · rw [beginning, Occasion.opened?_eq_some_iff.2 hopens, hnew, if_pos hopens]
      rfl
    · rw [beginning, Occasion.opened?_eq_none hopens (hpaths o List.mem_cons_self), if_neg hopens]
  rw [← hstart]
  exact follow_extends (hgrows.extends hpaths)

/-- A log with a line in it at the start, of which one more is added while reading is refused. -/
def startedLog : List Occasion := [
  ⟨⟨.file 7, fun _ => ⟨[97, 10], 1, 0⟩⟩, .none, fun _ => none⟩,
  ⟨⟨.file 7, fun _ => ⟨[97, 10, 98, 10], 2, 0⟩⟩,
    Refusals.none.set .readNext ⟨0, 1, .inputOutput⟩, fun _ => none⟩,
  ⟨⟨.file 7, fun _ => ⟨[97, 10, 98, 10], 2, 0⟩⟩, .none, fun _ => none⟩]

theorem follow_startedLog :
    (∀ p ∈ startedLog, p.view.target = .file 7 ∨ ∃ e, p.view.target = .unreachable e) ∧
    Grows 7 startedLog ∧
    (follow (start ⟨"app", ⟨.none, ["app.log"]⟩, false, false, .web⟩ 3) startedLog).Ends
      (fun run => run.Relays 7 2 startedLog ∨ run.Strayed)
      (fun _ run => run.RelaysPart 7 2 startedLog ∨ run.Strayed) := by
  have hpaths : ∀ p ∈ startedLog, p.view.target = .file 7 ∨
      ∃ e, p.view.target = .unreachable e := by
    intro p hp
    simp only [startedLog, List.mem_cons, List.not_mem_nil, or_false] at hp
    rcases hp with rfl | rfl | rfl <;> exact .inl rfl
  have hgrows : Grows 7 startedLog := by
    unfold Grows
    decide
  exact ⟨hpaths, hgrows, follow_new_content rfl hpaths hgrows⟩

/-- A log with a line in it at the start, which may not be opened at first. -/
def guardedLog : List Occasion := [
  ⟨⟨.file 7, fun _ => ⟨[97, 10], 1, 0⟩⟩,
    Refusals.none.set .openFile ⟨0, 1, .permission⟩, fun _ => none⟩,
  ⟨⟨.file 7, fun _ => ⟨[97, 10], 1, 0⟩⟩, .none, fun _ => none⟩]

/-- The line is delivered although it was there at the start and the file never changed. -/
theorem follow_guardedLog :
    Grows 7 guardedLog ∧
    (follow (start ⟨"app", ⟨.none, ["app.log"]⟩, false, false, .web⟩ 10)
      guardedLog).ending = .waits ∧
    (follow (start ⟨"app", ⟨.none, ["app.log"]⟩, false, false, .web⟩ 10)
      guardedLog).run.lines = ["a"] := by
  refine ⟨?_, rfl, rfl⟩
  unfold Grows
  decide

end Follower

end LogRelay
