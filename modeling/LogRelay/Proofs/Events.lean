import LogRelay.Proofs.Work
import Mathlib.Data.List.Count

/-!
# What the events tell

From the events of a run come the lines that were delivered (`Run.lines`), the texts that were
offered (`Run.Offers`) and the counters, of which those of reopenings are read off the events again
(`Run.reopens_eq_count`).
-/

namespace LogRelay

/-! ## Counters -/

namespace Tally

theorem count_nil (c : Counter) : count [] c = 0 := rfl

theorem count_cons (d e : Counter) (n : Nat) (t : Tally) :
    count ((e, n) :: t) d = if d = e then n else count t d := by
  by_cases h : d = e
  · simp [count, h]
  · have hb : (d == e) = false := beq_false_of_ne h
    simp [count, List.lookup_cons, hb, h]

theorem count_raise (c d : Counter) (t : Tally) :
    count (raise c t) d = count t d + if d = c then 1 else 0 := by
  induction t with
  | nil => rw [raise, count_cons, count_nil, Nat.zero_add]
  | cons entry t ih =>
    obtain ⟨e, n⟩ := entry
    rw [raise, count_cons]
    split
    · next he =>
      subst he
      rw [count_cons]
      split <;> rfl
    · next he =>
      rw [count_cons, ih]
      split
      · next hd =>
        subst hd
        rw [if_neg he, Nat.add_zero]
      · rfl

/-- A counter is as often raised as it is listed. -/
theorem count_raiseAll (t : Tally) (cs : List Counter) (d : Counter) :
    count (raiseAll t cs) d = count t d + cs.count d := by
  induction cs generalizing t with
  | nil => rfl
  | cons c cs ih =>
    have h : raiseAll t (c :: cs) = raiseAll (raise c t) cs := rfl
    rw [h, ih, count_raise, List.count_cons]
    by_cases hd : d = c
    · simp [hd]
      omega
    · simp [hd, Ne.symm hd]

end Tally

/-! ## Single events -/

namespace FollowEvent

/-- The text that was offered to who takes the lines, delivered or not. -/
def offered? : FollowEvent → Option Text
  | line t | lineRefused t => some t
  | _ => none

/-- The reason for which reading began at a start again. -/
def reopened? : FollowEvent → Option Reopening
  | reopened reason => some reason
  | _ => none

theorem counter?_eq_map (source : Source) (e : FollowEvent) :
    e.counter? source = e.reopened?.map fun reason => .fileReopens source.name reason.name := by
  cases e <;> rfl

end FollowEvent

theorem Reopening.name_injective : Function.Injective Reopening.name := by
  intro a b h
  cases a <;> cases b <;> first | rfl | exact absurd h (by decide)

/-! ## Runs -/

namespace Run

/-- The lines that were delivered, in their order. -/
def lines (run : Run) : List Text := run.events.reverse.filterMap FollowEvent.line?

/-- A text was offered as a line. -/
def Offers (run : Run) (t : Text) : Prop := ∃ e ∈ run.events, e.offered? = some t

/-- The counters that the run has raised. -/
def tally (run : Run) : Tally :=
  Tally.raiseAll [] (run.events.reverse.filterMap (FollowEvent.counter? run.follower.source))

/-- How often the counter of a reason to begin again was raised. -/
def reopens (run : Run) (reason : Reopening) : Nat :=
  run.tally.count (.fileReopens run.follower.source.name reason.name)

variable {run : Run} {e : FollowEvent}

theorem offers_log_iff {t : Text} : (run.log e).Offers t ↔ e.offered? = some t ∨ run.Offers t := by
  simp [Offers, log]

theorem offers_of_mem_lines {t : Text} (h : t ∈ run.lines) : run.Offers t := by
  obtain ⟨e, he, ht⟩ := List.mem_filterMap.1 h
  refine ⟨e, List.mem_reverse.1 he, ?_⟩
  cases e with
  | line t' => exact ht
  | _ => cases ht

theorem lines_log (run : Run) (e : FollowEvent) :
    (run.log e).lines = run.lines ++ e.line?.toList := by
  cases h : e.line? <;> simp [lines, log, List.filterMap_append, h]

theorem lines_log_of_eq_none (h : e.line? = none) : (run.log e).lines = run.lines := by
  rw [lines_log, h, Option.toList_none, List.append_nil]

theorem lines_logLines (run : Run) (ls : List Bytes) :
    (run.logLines ls).lines = run.lines ++ ls.map lineText := by
  induction ls generalizing run with
  | nil => simp [logLines_nil]
  | cons l ls ih => simp [logLines_cons, ih, lines_log, FollowEvent.line?]

/-- The counters of reopenings are the reopenings among the events. -/
theorem reopens_eq_count (run : Run) (reason : Reopening) :
    run.reopens reason = (run.events.filterMap FollowEvent.reopened?).count reason := by
  have hc : run.events.reverse.filterMap (FollowEvent.counter? run.follower.source) =
      ((run.events.filterMap FollowEvent.reopened?).map fun reason =>
        Counter.fileReopens run.follower.source.name reason.name).reverse := by
    rw [List.filterMap_reverse, List.map_filterMap]
    congr 1
    exact List.filterMap_congr fun e _ => FollowEvent.counter?_eq_map _ e
  have hinj : Function.Injective fun reason : Reopening =>
      Counter.fileReopens run.follower.source.name reason.name := by
    intro a b h
    exact Reopening.name_injective (Counter.fileReopens.inj h).2
  rw [reopens, tally, Tally.count_raiseAll, Tally.count_nil, Nat.zero_add, hc, List.count_reverse,
    List.count_map_of_injective _ _ hinj]

theorem reopens_congr {run' : Run} (h : run'.events = run.events) (reason : Reopening) :
    run'.reopens reason = run.reopens reason := by
  rw [reopens_eq_count, reopens_eq_count, h]

theorem reopens_log_of_eq_none (h : e.reopened? = none) (reason : Reopening) :
    (run.log e).reopens reason = run.reopens reason := by
  simp [reopens_eq_count, log, h]

theorem reopens_log_reopened (run : Run) (reason other : Reopening) :
    (run.log (.reopened reason)).reopens other = run.reopens other +
      if reason = other then 1 else 0 := by
  simp only [reopens_eq_count, events_log, FollowEvent.reopened?,
    List.filterMap_cons, List.count_cons, beq_iff_eq]

theorem reopens_logLines (run : Run) (ls : List Bytes) (reason : Reopening) :
    (run.logLines ls).reopens reason = run.reopens reason := by
  induction ls generalizing run with
  | nil => rfl
  | cons l ls ih => rw [logLines_cons, ih, reopens_log_of_eq_none rfl]

end Run

end LogRelay
