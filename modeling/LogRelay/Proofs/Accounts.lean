import LogRelay.Proofs.Console

/-!
# Accounting for lines

Lines are judged one after another, each with its own source and in the surroundings of the moment
(`Call`), and what they leave behind is kept in one `ledger`.  However sources and surroundings
change, the ledger balances (`ledger_balances`): every line that was read is printed, held back or
refused, every record that could not be decoded has been counted and reported once, and the console
shows the printed lines alone.
-/

namespace LogRelay

/-! ## Sums of counters -/

/-- A counter of lines of a source that were held back, for whatever reason. -/
def Counter.suppresses (name : Text) : Counter → Bool
  | linesSuppressed source _ => source == name
  | _ => false

namespace Tally

/-- The sum of the counters of a kind. -/
def sumOf (t : Tally) (p : Counter → Bool) : Nat :=
  ((t.filter fun entry => p entry.1).map Prod.snd).sum

theorem sumOf_cons (c : Counter) (n : Nat) (t : Tally) (p : Counter → Bool) :
    sumOf ((c, n) :: t) p = (if p c then n else 0) + sumOf t p := by
  cases h : p c <;> simp [sumOf, h]

theorem sumOf_raise (c : Counter) (t : Tally) (p : Counter → Bool) :
    sumOf (raise c t) p = sumOf t p + if p c then 1 else 0 := by
  induction t with
  | nil => rw [raise, sumOf_cons, Nat.add_comm]
  | cons entry t ih =>
    obtain ⟨d, n⟩ := entry
    rw [raise]
    split
    · next hd =>
      subst hd
      rw [sumOf_cons, sumOf_cons]
      split <;> omega
    · rw [sumOf_cons, sumOf_cons, ih, Nat.add_assoc]

theorem sumOf_raiseAll (t : Tally) (cs : List Counter) (p : Counter → Bool) :
    sumOf (raiseAll t cs) p = sumOf t p + cs.countP p := by
  induction cs generalizing t with
  | nil => rfl
  | cons c cs ih =>
    have h : raiseAll t (c :: cs) = raiseAll (raise c t) cs := rfl
    rw [h, ih, sumOf_raise, List.countP_cons]
    omega

end Tally

namespace Report

/-- The counters that what was reported has raised. -/
def tally (r : Report) : Tally := Tally.raiseAll [] r.counters

/-- The warnings among the notices. -/
def warnings (r : Report) : List Notice := r.notices.filter (·.level = .warning)

variable (r r' : Report)

theorem count_tally_append (c : Counter) :
    (r.append r').tally.count c = r.tally.count c + r'.counters.count c := by
  simp [tally, append, Tally.count_raiseAll, Tally.count_nil]

theorem sumOf_tally_append (p : Counter → Bool) :
    (r.append r').tally.sumOf p = r.tally.sumOf p + r'.counters.countP p := by
  have hnil : Tally.sumOf [] p = 0 := rfl
  simp [tally, append, Tally.sumOf_raiseAll, hnil]

theorem warnings_append : (r.append r').warnings = r.warnings ++ r'.warnings := by
  simp [warnings, append]

end Report

namespace Pipeline

/-! ## Calls -/

/-- A line that is judged, with its source and the surroundings of the moment. -/
structure Call where
  context : Context
  source : Source
  line : Text

namespace Call

/-- What becomes of the line. -/
def outcome (c : Call) : Outcome := process c.context c.source c.line

/-- What the call leaves behind. -/
def report (c : Call) : Report := ⟨c.outcome.notices, c.outcome.writes, c.outcome.counters c.source⟩

/-- The text of the line in the layout of the moment. -/
def rendered (c : Call) : Text := (Layout.render c.context.format c.line (Entry.ofLine c.line)).text

/-- Whether the line was printed. -/
def isPrinted (c : Call) : Bool :=
  match c.outcome.verdict with
  | .printed _ => true
  | _ => false

/-- Whether the line could not be written. -/
def isRefused (c : Call) : Bool :=
  match c.outcome.verdict with
  | .refused _ => true
  | _ => false

/-- Whether the line is one of a source with this name. -/
def isOf (name : Text) (c : Call) : Bool := c.source.name == name

/-- Whether the line holds an identifier that is to be held back. -/
def isExcluded (c : Call) : Bool :=
  Filter.isExcluded c.line (FilterSettings.load c.context.environment).excluded

/-- Whether the line is not held back for an identifier, looks like a record and is none. -/
def isUndecodable (c : Call) : Bool :=
  !c.isExcluded && Entry.isStructured c.line && (Entry.decode c.line).toOption.isNone

/-- The warning that the line is no record. -/
def warning (c : Call) : Notice :=
  let error := match Entry.decode c.line with
    | .error reason => reason.message c.line
    | .ok _ => []
  .undecodable c.source.name error c.line

variable {c : Call}

/-! ### One call -/

theorem checkRaw_eq_none_iff :
    Filter.checkRaw (FilterSettings.load c.context.environment) c.line = none ↔
    c.isExcluded = false := by
  unfold isExcluded Filter.checkRaw
  split
  · next h => simp [h]
  · next h => simpa using h

theorem decodeNotices_eq (h : c.isExcluded = false) :
    decodeNotices c.source c.line (Entry.ofLine c.line) =
      if c.isUndecodable then [c.warning] else [] := by
  unfold isUndecodable Entry.ofLine warning
  rw [h]
  cases Entry.isStructured c.line with
  | false => rfl
  | true =>
    cases Entry.decode c.line with
    | ok m => rfl
    | error reason => rfl

theorem notices_no_warning (settings : FilterSettings) (host : Filter.HostName) (source : Source)
    (entry : Entry) :
    (Filter.notices settings host source entry).filter (·.level = .warning) = [] := by
  unfold Filter.notices
  split
  · rfl
  · rfl

theorem layoutNotices_no_warning (source : Source) (r : Layout.Rendering) :
    (layoutNotices source r).filter (·.level = .warning) = [] := by
  unfold layoutNotices
  split
  · rfl
  · rfl

/-- A record that cannot be decoded is counted and reported, unless the line was held back
before. -/
theorem decodeFailed_outcome (c : Call) :
    c.outcome.decodeFailed = c.isUndecodable ∧
      c.report.warnings = if c.isUndecodable then [c.warning] else [] := by
  unfold report Report.warnings outcome process
  dsimp only
  cases hexcluded : c.isExcluded with
  | true =>
    have hraw : Filter.checkRaw (FilterSettings.load c.context.environment) c.line ≠ none := by
      intro hnone
      rw [checkRaw_eq_none_iff.1 hnone] at hexcluded
      cases hexcluded
    obtain ⟨reason, hreason⟩ := Option.ne_none_iff_exists'.1 hraw
    have hnot : c.isUndecodable = false := by simp [isUndecodable, hexcluded]
    rw [hreason, hnot]
    exact ⟨rfl, rfl⟩
  | false =>
    have hlevel : c.warning.level = .warning := rfl
    rw [checkRaw_eq_none_iff.2 hexcluded]
    dsimp only
    rw [decodeNotices_eq hexcluded]
    cases Filter.checkDecoded (FilterSettings.load c.context.environment) c.context.host c.source
        (Entry.ofLine c.line) with
    | some reason =>
      cases c.isUndecodable <;> simp [notices_no_warning, hlevel]
    | none =>
      cases c.isUndecodable <;> simp [notices_no_warning, layoutNotices_no_warning, hlevel]

theorem writes_report (c : Call) :
    c.report.writes = if c.isPrinted then [c.rendered ++ "\n"] else [] := by
  have hverdict := verdict_process c.context c.source c.line
  unfold report isPrinted Outcome.writes Outcome.output outcome
  dsimp only
  rw [hverdict]
  cases reason? c.context c.source c.line with
  | some reason => rfl
  | none =>
    dsimp only
    unfold write
    cases Utf8.firstSurrogates
        (Layout.render c.context.format c.line (Entry.ofLine c.line)).text with
    | some e => rfl
    | none => rfl

/-- A line that was read is printed, held back or refused. -/
theorem counters_report (c : Call) (name : Text) :
    c.report.counters.count (.linesRead name) = c.report.counters.count (.linesEmitted name) +
      c.report.counters.countP (Counter.suppresses name) +
        if c.isOf name && c.isRefused then 1 else 0 := by
  unfold report Outcome.counters isRefused isOf
  cases c.outcome.verdict <;> cases c.outcome.decodeFailed <;>
    simp [Counter.suppresses, List.count_cons]

theorem count_decodeFailures_report (c : Call) (name : Text) :
    c.report.counters.count (.decodeFailures name) =
      if c.isOf name && c.isUndecodable then 1 else 0 := by
  rw [← (decodeFailed_outcome c).1]
  unfold report Outcome.counters isOf
  cases c.outcome.verdict <;> cases c.outcome.decodeFailed <;> simp [List.count_cons]

theorem count_linesRead_report (c : Call) (name : Text) :
    c.report.counters.count (.linesRead name) = if c.isOf name then 1 else 0 := by
  unfold report Outcome.counters isOf
  cases c.outcome.verdict <;> cases c.outcome.decodeFailed <;> simp [List.count_cons]

end Call

/-! ## The ledger -/

/-- What some calls leave behind, one after another. -/
def ledger (cs : List Call) : Report := cs.foldl (fun r c => r.append c.report) {}

theorem ledger_concat (cs : List Call) (c : Call) :
    ledger (cs ++ [c]) = (ledger cs).append c.report := by
  rw [ledger, List.foldl_append]
  rfl

/-- What a ledger says of the calls it was kept of. -/
structure Balances (r : Report) (cs : List Call) : Prop where
  read : ∀ name, r.tally.count (.linesRead name) = cs.countP (·.isOf name)
  spent : ∀ name, r.tally.count (.linesRead name) = r.tally.count (.linesEmitted name) +
    r.tally.sumOf (Counter.suppresses name) + cs.countP fun c => c.isOf name && c.isRefused
  failures : ∀ name, r.tally.count (.decodeFailures name) = cs.countP
    fun c => c.isOf name && c.isUndecodable
  /-- One warning for each record that could not be decoded, and no other. -/
  warnings : r.warnings = (cs.filter Call.isUndecodable).map Call.warning
  writes : r.writes = (cs.filter Call.isPrinted).map fun c => c.rendered ++ ("\n" : Text)

theorem Balances.concat {r : Report} {cs : List Call} (h : Balances r cs) (c : Call) :
    Balances (r.append c.report) (cs ++ [c]) where
  read name := by
    rw [Report.count_tally_append, h.read, Call.count_linesRead_report]
    simp [List.countP_append, List.countP_singleton]
  spent name := by
    have hcall := c.counters_report name
    have hspent := h.spent name
    rw [Report.count_tally_append, Report.count_tally_append, Report.sumOf_tally_append,
      List.countP_append, List.countP_singleton]
    omega
  failures name := by
    rw [Report.count_tally_append, h.failures, Call.count_decodeFailures_report]
    simp [List.countP_append, List.countP_singleton]
  warnings := by
    rw [Report.warnings_append, h.warnings, (Call.decodeFailed_outcome c).2, List.filter_append,
      List.map_append, List.filter_singleton]
    cases c.isUndecodable <;> rfl
  writes := by
    have happend : (r.append c.report).writes = r.writes ++ c.report.writes := rfl
    rw [happend, h.writes, c.writes_report, List.filter_append, List.map_append,
      List.filter_singleton]
    cases c.isPrinted <;> rfl

/-- Of every sequence of lines, hence of every beginning of one, the ledger balances, whatever their
sources and however the surroundings change; and a line that is not printed leaves the console as it
was. -/
theorem ledger_balances (cs : List Call) :
    Balances (ledger cs) cs ∧ ∀ c, (ledger (cs ++ [c])).writes =
      (ledger cs).writes ++ if c.isPrinted then [c.rendered ++ "\n"] else [] := by
  refine ⟨?_, fun c => ?_⟩
  · induction cs using List.reverseRecOn with
    | nil => exact ⟨fun _ => rfl, fun _ => rfl, fun _ => rfl, rfl, rfl⟩
    | append_singleton cs c ih =>
      rw [ledger_concat]
      exact ih.concat c
  · rw [ledger_concat, ← c.writes_report]
    rfl

end Pipeline

end LogRelay
