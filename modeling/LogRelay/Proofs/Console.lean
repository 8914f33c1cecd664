import LogRelay.Proofs.Layout
import LogRelay.Proofs.Running
import LogRelay.Proofs.Utf8
import LogRelay.Service

/-!
# What reaches the console

Every line that a follower delivers ends in one of three ways: it is held back, printed or refused.
In the machine layout it is never refused, and what is printed is one line that reads as an object
(`machine_prints_object`).  In the basic layout a line is refused exactly if it is a record whose
text holds a lone surrogate, which only an escape by number can bring in (`process_refused_iff`).
-/

namespace LogRelay.Pipeline

variable {ctx : Context} {source : Source} {line text : Text}

/-! ## Judging a line -/

/-- The filters on a line, in their order. -/
def reason? (ctx : Context) (source : Source) (line : Text) : Option Suppression :=
  Filter.check (FilterSettings.load ctx.environment) ctx.host source line (Entry.ofLine line)

theorem verdict_process (ctx : Context) (source : Source) (line : Text) :
    (process ctx source line).verdict =
      match reason? ctx source line with
      | some reason => .suppressed reason
      | none => write (Layout.render ctx.format line (Entry.ofLine line)).text := by
  unfold process reason? Filter.check
  dsimp only
  cases Filter.checkRaw (FilterSettings.load ctx.environment) line with
  | some reason => rfl
  | none =>
    cases Filter.checkDecoded (FilterSettings.load ctx.environment) ctx.host source
        (Entry.ofLine line) with
    | some reason => rfl
    | none => rfl

/-- What cannot be written are the texts with surrogates. -/
theorem write_eq_refused_iff : (∃ e, write text = .refused e) ↔ ∃ c ∈ text, c.isSurrogate := by
  rw [← Utf8.firstSurrogates_isSome]
  unfold write
  cases Utf8.firstSurrogates text with
  | some e => simp
  | none => simp

theorem write_eq_printed (h : ∀ c ∈ text, ¬ c.isSurrogate) : write text = .printed text := by
  have hnone : Utf8.firstSurrogates text = none := by
    rw [← Option.not_isSome_iff_eq_none, Utf8.firstSurrogates_isSome]
    rintro ⟨c, hc, hs⟩
    exact h c hc hs
  rw [write, hnone]

/-! ## Layouts -/

/-- In the machine layout no surrogate is written that was not in the line. -/
theorem mem_of_mem_machine {c : CodePoint} (hc : c ∈ Layout.machine line (Entry.ofLine line))
    (hs : c.isSurrogate) : c ∈ line := by
  unfold Layout.machine at hc
  split at hc
  · exact hc
  · obtain hkey | hline := (Json.mem_write_member hc).2 hs
    · have hplain : ("message" : Text).any CodePoint.isSurrogate = false := rfl
      exact absurd hs (List.any_eq_false.1 hplain c hkey)
    · exact hline

/-- A surrogate that is written of a record of a log is written as an escape by number there. -/
theorem escape_of_mem_basic {line : Bytes} {m : Message} {c : CodePoint}
    (h : Entry.ofLine (lineText line) = .record m)
    (hc : c ∈ (Layout.basic (lineText line) (.record m)).text) (hs : c.isSurrogate) :
    (['\\', 'u'] : Text) <:+: lineText line := by
  obtain hmem | hescape :=
    Json.supplies_of_parse (Entry.parse_of_ofLine h) (Layout.holds_of_mem_basic hs hc) hs
  -- what was decoded from octets holds no surrogate
  · exact absurd hs (isSurrogate_of_mem_lineText hmem)
  · exact hescape

/-! ## Lines of a log -/

theorem refused_iff_of_clean (ctx : Context) (source : Source)
    (hclean : ∀ c ∈ line, ¬ c.isSurrogate) :
    (∃ e, (process ctx source line).verdict = .refused e) ↔
      ctx.format = .basic ∧ reason? ctx source line = none ∧
        ∃ m, Entry.ofLine line = .record m ∧ ∃ c ∈ (Layout.basic line (.record m)).text,
          c.isSurrogate := by
  rw [verdict_process]
  cases hreason : reason? ctx source line with
  | some reason => simp
  | none =>
    dsimp only
    rw [write_eq_refused_iff]
    cases hformat : ctx.format with
    | machine =>
      constructor
      · rintro ⟨c, hc, hs⟩
        exact absurd hs (hclean c (mem_of_mem_machine hc hs))
      · rintro ⟨hbasic, -⟩
        cases hbasic
    | basic =>
      cases hentry : Entry.ofLine line with
      | record m => simp [Layout.render]
      | plain => simpa [Layout.render, Layout.basic, Entry.message?] using hclean
      | undecodable reason => simpa [Layout.render, Layout.basic, Entry.message?] using hclean

/-- A line of a log, whatever octets it has, is refused exactly if it passes the filters and is a
record that is written in the basic layout with a lone surrogate in it.  Such a line holds an escape
by number. -/
theorem process_refused_iff (ctx : Context) (source : Source) (line : Bytes) :
    ((∃ e, (process ctx source (lineText line)).verdict = .refused e) ↔
      ctx.format = .basic ∧ reason? ctx source (lineText line) = none ∧
        ∃ m, Entry.ofLine (lineText line) = .record m ∧
          ∃ c ∈ (Layout.basic (lineText line) (.record m)).text, c.isSurrogate) ∧
    ((∃ e, (process ctx source (lineText line)).verdict = .refused e) →
      (['\\', 'u'] : Text) <:+: lineText line) := by
  have hiff :=
    refused_iff_of_clean ctx source fun c (hc : c ∈ lineText line) => isSurrogate_of_mem_lineText hc
  refine ⟨hiff, fun hrefused => ?_⟩
  obtain ⟨-, -, m, hentry, c, hc, hs⟩ := hiff.1 hrefused
  exact escape_of_mem_basic hentry hc hs

/-- A record whose message is the escape of a lone surrogate. -/
def escapedSurrogate : Bytes :=
  [123, 34, 109, 101, 115, 115, 97, 103, 101, 34, 58, 34, 92, 117, 100, 56, 48, 48, 34, 125]

theorem ofLine_escapedSurrogate :
    Entry.ofLine (lineText escapedSurrogate) =
      .record ⟨[("message", .text [CodePoint.ofNat 0xD800])]⟩ := by
  have hline : lineText escapedSurrogate = "\x7b\"message\":\"\\ud800\"\x7d" := by decide +kernel
  rw [hline]
  cbv

theorem process_escapedSurrogate :
    (process ⟨.basic, ⟨[]⟩, .ok []⟩ ⟨"web", ⟨.none, ["messages.log"]⟩, false, false, .web⟩
      (lineText escapedSurrogate)).verdict = .refused ⟨1, [CodePoint.ofNat 0xD800]⟩ := by
  have hpass : reason? ⟨.basic, ⟨[]⟩, .ok []⟩ ⟨"web", ⟨.none, ["messages.log"]⟩, false, false, .web⟩
      (lineText escapedSurrogate) = none := by
    rw [reason?, ofLine_escapedSurrogate]
    rfl
  have htext : (Layout.basic (lineText escapedSurrogate)
      (.record ⟨[("message", .text [CodePoint.ofNat 0xD800])]⟩)).text =
        [32, CodePoint.ofNat 0xD800] := by
    decide +kernel
  rw [verdict_process, hpass, ofLine_escapedSurrogate]
  dsimp only [Layout.render]
  rw [htext]
  rfl

/-! ## The machine layout -/

/-- The only member of the object that a line which is no record is wrapped into. -/
def wrapping (line : Text) : List (Text × Json) := [("message", .text line)]

/-- What reaches the console is one line, which reads as an object. -/
structure Outcome.Prints (o : Outcome) (text : Text) (members : List (Text × Json)) : Prop where
  verdict : o.verdict = .printed text
  output : o.output = text ++ "\n"
  newline : ('\n' : CodePoint) ∉ text
  parse : Json.parse text = .ok (.object members)

theorem machine_of_record {m : Message} (h : Entry.ofLine line = .record m) :
    Layout.machine line (Entry.ofLine line) = line := by
  rw [Layout.machine, h]
  rfl

theorem machine_of_not_record (h : ∀ m, Entry.ofLine line ≠ .record m) :
    Layout.machine line (Entry.ofLine line) = (Json.object (wrapping line)).write Json.compact := by
  unfold Layout.machine
  cases hentry : Entry.ofLine line with
  | record m => exact absurd hentry (h m)
  | plain => rfl
  | undecodable reason => rfl

/-- In the machine layout every line of a log that passes the filters is printed as one line that
reads as an object: a record as it stands, and any other line as the only member of a new record,
whose text is the line again. -/
theorem machine_prints_object {source other : Source} {limit : Int}
    {os : List Occasion} {line : Text}
    (hline : (Follower.follow (Follower.start source limit) os).run.Offers line) {ctx : Context}
    (hformat : ctx.format = .machine) (hpass : reason? ctx other line = none) :
    ∃ text members, (process ctx other line).Prints text members ∧
      (∀ m, Entry.ofLine line = .record m → text = line ∧ members = m.members) ∧
      ((∀ m, Entry.ofLine line ≠ .record m) → members = wrapping line) := by
  obtain ⟨bytes, hbytes, rfl⟩ := Follower.exists_line_of_offers hline
  set text := Layout.machine (lineText bytes) (Entry.ofLine (lineText bytes)) with htext
  have hverdict : (process ctx other (lineText bytes)).verdict = .printed text := by
    rw [verdict_process, hpass, hformat]
    exact write_eq_printed fun c hc hs => isSurrogate_of_mem_lineText (mem_of_mem_machine hc hs) hs
  have houtput : (process ctx other (lineText bytes)).output = text ++ "\n" := by
    rw [Outcome.output, hverdict]
  by_cases hrecord : ∃ m, Entry.ofLine (lineText bytes) = .record m
  · obtain ⟨m, hm⟩ := hrecord
    rw [machine_of_record hm] at htext
    have hnewline : ('\n' : CodePoint) ∉ text := by
      rw [htext]
      exact newline_notMem_lineText hbytes
    have hparse : Json.parse text = .ok (.object m.members) := by
      rw [htext]
      exact Entry.parse_of_ofLine hm
    refine ⟨text, m.members, ⟨hverdict, houtput, hnewline, hparse⟩, fun m' hm' => ⟨htext, ?_⟩,
      fun h => absurd hm (h m)⟩
    rw [hm] at hm'
    exact congrArg Message.members (Entry.record.inj hm')
  · have hother : ∀ m, Entry.ofLine (lineText bytes) ≠ .record m := fun m hm => hrecord ⟨m, hm⟩
    rw [machine_of_not_record hother] at htext
    have hnewline : ('\n' : CodePoint) ∉ text := by
      rw [htext]
      intro hc
      exact absurd (Json.mem_write_member hc).1 (by decide)
    have hparse : Json.parse text = .ok (.object (wrapping (lineText bytes))) := by
      rw [htext]
      exact Json.parse_write_member _ _
    exact ⟨text, _, ⟨hverdict, houtput, hnewline, hparse⟩,
      fun m hm => absurd hm (hother m), fun _ => rfl⟩

/-- A log of one line with a quotation mark in it. -/
def quotedLog : List Occasion := [⟨⟨.file 7, fun _ => ⟨[97, 34, 10], 1, 0⟩⟩, .none, fun _ => none⟩]

theorem machine_prints_quotedLog :
    (Follower.follow (Follower.start ⟨"app", ⟨.none, ["app.log"]⟩, true, false, .web⟩ 3)
      quotedLog).run.Offers (lineText [97, 34]) ∧
    ∃ text, (process ⟨.machine, ⟨[]⟩, .ok []⟩ ⟨"app", ⟨.none, ["app.log"]⟩, true, false, .web⟩
      (lineText [97, 34])).Prints text (wrapping (lineText [97, 34])) := by
  have hlines : (Follower.follow (Follower.start ⟨"app", ⟨.none, ["app.log"]⟩, true, false, .web⟩ 3)
      quotedLog).run.lines = [lineText [97, 34]] := by decide +kernel
  have hoffers := Run.offers_of_mem_lines (hlines ▸ List.mem_singleton_self (lineText [97, 34]))
  have hpass : reason? ⟨.machine, ⟨[]⟩, .ok []⟩ ⟨"app", ⟨.none, ["app.log"]⟩, true, false, .web⟩
      (lineText [97, 34]) = none := by decide +kernel
  have hplain : ∀ m, Entry.ofLine (lineText [97, 34]) ≠ .record m := by
    intro m hm
    cases hm
  obtain ⟨text, members, hprints, -, hmembers⟩ := machine_prints_object hoffers rfl hpass
  obtain rfl := hmembers hplain
  exact ⟨hoffers, text, hprints⟩

end LogRelay.Pipeline
