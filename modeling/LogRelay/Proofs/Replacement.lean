import LogRelay.Proofs.Chunks
import LogRelay.Proofs.Encoding
import LogRelay.Proofs.Running

/-!
# Replaced octets

What octets are decoded to is said here without a decoder (`Utf8.Decodes`): a code point is read
wherever one can be, and where none can be, the longest part that begins the octets of one is
ill-formed, or one octet if there is no such part, and U+FFFD stands for it.  Every sequence of
octets is decoded to one text that way, and `Utf8.decode` gives it (`Utf8.decodes_iff`).

A line feed stands in the octets of no other code point, hence in no ill-formed part.  So what
stands before it is decoded as if it were all there is, and what stands behind it as if nothing had
been before (`Utf8.decode_append_newline`), and octets may be cut into lines before they are decoded
or after (`Utf8.split_decode`).
-/

namespace LogRelay

namespace Utf8

variable {c : CodePoint} {b : UInt8} {p : Partial} {pending : Option Partial}
  {held part rest bytes : Bytes} {t u : Text}

/-! ## Ill-formed parts -/

/-- Octets that the octets of some code point begin with. -/
def Begins (part : Bytes) : Prop := ∃ c : CodePoint, ¬ c.isSurrogate ∧ part <+: encodePoint c

/-- Where no code point can be read, the longest part that begins one, or one octet, is
ill-formed. -/
structure IllFormed (part rest : Bytes) : Prop where
  unreadable {c : CodePoint} (hc : ¬ c.isSurrogate) : ¬ encodePoint c <+: part ++ rest
  begun : part ≠ []
  begins : Begins part ∨ part.length = 1
  /-- No longer part begins a code point, and one octet is not longer. -/
  longest {longer : Bytes} (h : longer <+: part ++ rest) (hlength : part.length < longer.length) :
    ¬ Begins longer

/-- What octets are decoded to, with a replacement for each ill-formed part. -/
inductive Decodes : Bytes → Text → Prop
  | nil : Decodes [] []
  | point {c : CodePoint} {rest : Bytes} {t : Text} (hc : ¬ c.isSurrogate)
      (hrest : Decodes rest t) :
      Decodes (encodePoint c ++ rest) (c :: t)
  | illFormed {part rest : Bytes} {t : Text} (hpart : IllFormed part rest)
      (hrest : Decodes rest t) :
      Decodes (part ++ rest) (replacement :: t)

theorem encodePoint_ne_nil (c : CodePoint) : encodePoint c ≠ [] := by
  unfold encodePoint
  dsimp only
  repeat' split
  all_goals exact List.cons_ne_nil _ _

/-- Of the beginnings that have a property there is a longest one. -/
theorem exists_longest {P : Bytes → Prop} {part : Bytes} (hpart : part <+: bytes) (h : P part) :
    ∃ longest, longest <+: bytes ∧ P longest ∧ part.length ≤ longest.length ∧
      ∀ longer, longer <+: bytes → longest.length < longer.length → ¬ P longer := by
  by_cases hmore : ∃ longer, longer <+: bytes ∧ part.length < longer.length ∧ P longer
  · obtain ⟨longer, hlonger, hlt, hP⟩ := hmore
    have hle := hlonger.length_le
    obtain ⟨longest, hlongest, hP, hge, hmax⟩ := exists_longest hlonger hP
    exact ⟨longest, hlongest, hP, hlt.le.trans hge, hmax⟩
  · exact ⟨part, hpart, h, Nat.le_refl _,
      fun longer hlonger hlt hP => hmore ⟨longer, hlonger, hlt, hP⟩⟩
termination_by bytes.length - part.length

theorem exists_illFormed (hne : bytes ≠ [])
    (h : ∀ c : CodePoint, ¬ c.isSurrogate → ¬ encodePoint c <+: bytes) :
    ∃ part rest, part ++ rest = bytes ∧ IllFormed part rest := by
  obtain ⟨b, behind, rfl⟩ := List.exists_cons_of_ne_nil hne
  have hfirst : [b] <+: b :: behind := ⟨behind, rfl⟩
  obtain ⟨part, ⟨rest, hrest⟩, hbegins, hlength, hmax⟩ :=
    exists_longest (P := fun part => Begins part ∨ part.length = 1) hfirst (.inr rfl)
  rw [← hrest] at h hmax ⊢
  refine ⟨part, rest, rfl, fun hc => h _ hc, List.length_pos_iff.1 hlength, hbegins, ?_⟩
  exact fun hlonger hlt hlbegins => hmax _ hlonger hlt (.inl hlbegins)

theorem length_lt_of_append (hne : part ≠ []) (h : part ++ rest = bytes) :
    rest.length < bytes.length := by
  rw [← h, List.length_append]
  exact Nat.lt_add_of_pos_left (List.length_pos_iff.2 hne)

/-- Every sequence of octets is decoded to some text. -/
theorem exists_decodes (bytes : Bytes) : ∃ t, Decodes bytes t := by
  by_cases hne : bytes = []
  · exact ⟨[], hne ▸ .nil⟩
  by_cases hpoint : ∃ c : CodePoint, ¬ c.isSurrogate ∧ encodePoint c <+: bytes
  · obtain ⟨c, hc, rest, hbytes⟩ := hpoint
    have hless := length_lt_of_append (encodePoint_ne_nil c) hbytes
    obtain ⟨t, ht⟩ := exists_decodes rest
    exact ⟨c :: t, hbytes ▸ .point hc ht⟩
  · obtain ⟨part, rest, hbytes, hpart⟩ := exists_illFormed hne fun c hc h => hpoint ⟨c, hc, h⟩
    have hless := length_lt_of_append hpart.begun hbytes
    obtain ⟨t, ht⟩ := exists_decodes rest
    exact ⟨replacement :: t, hbytes ▸ .illFormed hpart ht⟩
termination_by bytes.length

/-! ## The decoder, octet by octet -/

/-- What octets are decoded to after a sequence that is still open. -/
def decodeFrom (pending : Option Partial) (bytes : Bytes) : Text :=
  (bytes.foldl Decoder.step ⟨[], pending⟩).finish

theorem exists_begin (b : UInt8) :
    ∃ new after, ∀ decoded, Decoder.begin decoded b = ⟨new ++ decoded, after⟩ := by
  unfold Decoder.begin
  cases start b with
  | complete c => exact ⟨[c], none, fun _ => rfl⟩
  | opened p => exact ⟨[], some p, fun _ => rfl⟩
  | invalid => exact ⟨[replacement], none, fun _ => rfl⟩

/-- What an octet adds does not depend on what was decoded before. -/
theorem exists_step (pending : Option Partial) (b : UInt8) :
    ∃ new after, ∀ decoded, Decoder.step ⟨decoded, pending⟩ b = ⟨new ++ decoded, after⟩ := by
  obtain ⟨new, after, hbegin⟩ := exists_begin b
  cases pending with
  | none => exact ⟨new, after, hbegin⟩
  | some p =>
    unfold Decoder.step
    dsimp only
    split
    · split
      · exact ⟨[_], none, fun _ => rfl⟩
      · exact ⟨[], some _, fun _ => rfl⟩
    · refine ⟨new ++ [replacement], after, fun decoded => ?_⟩
      rw [hbegin, List.append_assoc, List.singleton_append]

theorem finish_foldl_step (decoded : Text) (pending : Option Partial) (bytes : Bytes) :
    (bytes.foldl Decoder.step ⟨decoded, pending⟩).finish =
      decoded.reverse ++ decodeFrom pending bytes := by
  induction bytes generalizing decoded pending with
  | nil => cases pending <;> simp [decodeFrom, Decoder.finish]
  | cons b bytes ih =>
    obtain ⟨new, after, hstep⟩ := exists_step pending b
    rw [decodeFrom, List.foldl_cons, List.foldl_cons, hstep, hstep, ih, ih]
    simp only [List.reverse_append, List.reverse_nil, List.nil_append, List.append_assoc]

theorem decodeFrom_cons {new : Text} {after : Option Partial}
    (h : Decoder.step ⟨[], pending⟩ b = ⟨new, after⟩) :
    decodeFrom pending (b :: bytes) = new.reverse ++ decodeFrom after bytes := by
  rw [decodeFrom, List.foldl_cons, h, finish_foldl_step]

theorem decodeFrom_complete (h : start b = .complete c) :
    decodeFrom none (b :: bytes) = c :: decodeFrom none bytes := by
  have hstep : Decoder.step ⟨[], none⟩ b = ⟨[c], none⟩ := by
    simp only [Decoder.step, Decoder.begin, h]
  exact decodeFrom_cons hstep

theorem decodeFrom_opened (h : start b = .opened p) :
    decodeFrom none (b :: bytes) = decodeFrom (some p) bytes := by
  have hstep : Decoder.step ⟨[], none⟩ b = ⟨[], some p⟩ := by
    simp only [Decoder.step, Decoder.begin, h]
  exact decodeFrom_cons hstep

theorem decodeFrom_invalid (h : start b = .invalid) :
    decodeFrom none (b :: bytes) = replacement :: decodeFrom none bytes := by
  have hstep : Decoder.step ⟨[], none⟩ b = ⟨[replacement], none⟩ := by
    simp only [Decoder.step, Decoder.begin, h]
  exact decodeFrom_cons hstep

theorem decodeFrom_next (hin : p.low ≤ b ∧ b ≤ p.high) (hm : 1 < p.missing) :
    decodeFrom (some p) (b :: bytes) = decodeFrom (some (p.after b)) bytes := by
  have hstep : Decoder.step ⟨[], some p⟩ b = ⟨[], some (p.after b)⟩ := by
    simp only [Decoder.step, if_pos hin, if_neg (Nat.not_le_of_lt hm)]
    rfl
  exact decodeFrom_cons hstep

theorem decodeFrom_last (hin : p.low ≤ b ∧ b ≤ p.high) (hm : p.missing ≤ 1) :
    decodeFrom (some p) (b :: bytes) = CodePoint.ofNat (p.gain b) :: decodeFrom none bytes := by
  have hstep : Decoder.step ⟨[], some p⟩ b = ⟨[CodePoint.ofNat (p.gain b)], none⟩ := by
    simp only [Decoder.step, if_pos hin, if_pos hm]
    rfl
  exact decodeFrom_cons hstep

/-- An octet that does not continue the open sequence begins another one. -/
theorem decodeFrom_broken (hout : ¬ (p.low ≤ b ∧ b ≤ p.high)) :
    decodeFrom (some p) (b :: bytes) = replacement :: decodeFrom none (b :: bytes) := by
  have hstep : Decoder.step ⟨[], some p⟩ b = Decoder.step ⟨[replacement], none⟩ b := by
    simp only [Decoder.step, if_neg hout]
  rw [decodeFrom, List.foldl_cons, hstep, ← List.foldl_cons, finish_foldl_step]
  rfl

theorem decodeFrom_of_reads (h : Reads pending bytes c) (rest : Bytes) :
    decodeFrom pending (bytes ++ rest) = c :: decodeFrom none rest := by
  induction h with
  | single h => exact decodeFrom_complete h
  | first h _ ih => exact (decodeFrom_opened h).trans ih
  | next hin hm _ ih => exact (decodeFrom_next hin hm).trans ih
  | last hin hm => exact decodeFrom_last hin hm

/-! ## The decoder decodes -/

/-- An open sequence begins the octets of the least code point that it may come to. -/
theorem Partial.Of.begins (h : p.Of held) : Begins held.reverse := by
  have hordered := h.ordered
  have htop := h.sound.bound
  have hplain := h.sound.plain
  have hlt : p.least < p.bound :=
    Nat.mul_lt_mul_of_pos_right (by omega) (Nat.pow_pos (by omega))
  have hval : (CodePoint.ofNat p.least).val = p.least := CodePoint.val_ofNat (by omega)
  refine ⟨CodePoint.ofNat p.least, ?_, ?_⟩
  · rw [CodePoint.isSurrogate_iff, hval]
    omega
  · rw [h.encodes hval.ge (hval.trans_lt hlt)]
    exact List.prefix_append _ _

theorem Partial.Of.begins_continued (h : p.Of held) (hin : p.low ≤ b ∧ b ≤ p.high) :
    Begins (held.reverse ++ [b]) := by
  by_cases hm : p.missing ≤ 1
  · obtain ⟨hoctets, hclean⟩ := h.complete hin hm
    exact ⟨_, hclean, hoctets ▸ List.prefix_rfl⟩
  · rw [← List.reverse_cons]
    exact (h.after hin (Nat.lt_of_not_le hm)).begins

theorem start_of_not_begins (h : ¬ Begins [b]) : start b = .invalid := by
  cases hstart : start b with
  | complete c =>
    obtain ⟨hoctets, hclean⟩ := encodePoint_of_start hstart
    exact absurd ⟨c, hclean, hoctets ▸ List.prefix_rfl⟩ h
  | opened p => exact absurd (opens_of_start hstart).of.begins h
  | invalid => rfl

/-- The octets of a code point leave a sequence open as long as some of them are missing, by
induction on those that are there. -/
theorem exists_held_of_reads (h : Reads pending (part ++ b :: rest) c) (hheld : Held held pending) :
    ∃ after, Held (part.reverse ++ held) after ∧
      ∀ behind, decodeFrom pending (part ++ behind) = decodeFrom after behind := by
  induction part generalizing pending held with
  | nil => exact ⟨pending, hheld, fun _ => rfl⟩
  | cons o part ih =>
    have hmissing : part ++ b :: rest ≠ [] :=
      List.append_ne_nil_of_right_ne_nil part (List.cons_ne_nil b rest)
    rw [List.reverse_cons, List.append_assoc, List.singleton_append]
    rw [List.cons_append] at h
    generalize part ++ b :: rest = octets at h ih hmissing
    cases h with
    | single => exact absurd rfl hmissing
    | first hstart hrest =>
      obtain rfl : held = [] := hheld
      obtain ⟨after, hafter, hdecode⟩ := ih hrest (opens_of_start hstart).of
      exact ⟨after, hafter, fun behind => (decodeFrom_opened hstart).trans (hdecode behind)⟩
    | next hin hm hrest =>
      obtain ⟨after, hafter, hdecode⟩ := ih hrest (Partial.Of.after hheld hin hm)
      exact ⟨after, hafter, fun behind => (decodeFrom_next hin hm).trans (hdecode behind)⟩
    | last => exact absurd rfl hmissing

/-- A part that begins a code point leaves a sequence open that nothing behind it continues. -/
theorem IllFormed.decodeFrom_eq (h : IllFormed part rest) :
    decodeFrom none (part ++ rest) = replacement :: decodeFrom none rest := by
  by_cases hbegins : Begins part
  · obtain ⟨c, hc, missing, hoctets⟩ := hbegins
    have hreads : Reads none (part ++ missing) c := hoctets ▸ reads_encodePoint hc
    cases missing with
    | nil =>
      rw [List.append_nil] at hoctets
      exact absurd (hoctets ▸ List.prefix_append part rest) (h.unreadable hc)
    | cons b missing =>
      obtain ⟨after, hheld, hdecode⟩ := exists_held_of_reads hreads held_none
      rw [List.append_nil] at hheld
      rw [hdecode]
      cases after with
      | none => exact absurd (List.reverse_eq_nil_iff.1 hheld) h.begun
      | some p =>
        cases rest with
        | nil => rfl
        | cons o rest =>
          refine decodeFrom_broken fun hin => ?_
          have hlonger := Partial.Of.begins_continued hheld hin
          rw [List.reverse_reverse] at hlonger
          exact h.longest ⟨rest, by simp⟩ (by simp) hlonger
  · obtain ⟨b, rfl⟩ := List.length_eq_one_iff.1 (h.begins.resolve_left hbegins)
    exact decodeFrom_invalid (start_of_not_begins hbegins)

theorem Decodes.eq (h : Decodes bytes t) : t = decode bytes := by
  induction h with
  | nil => rfl
  | point hc _ ih =>
    rw [ih]
    exact (decodeFrom_of_reads (reads_encodePoint hc) _).symm
  | illFormed hpart _ ih =>
    rw [ih]
    exact hpart.decodeFrom_eq.symm

/-- What octets are decoded to is one text, and the decoder gives it. -/
theorem decodes_iff : Decodes bytes t ↔ t = decode bytes := by
  refine ⟨Decodes.eq, ?_⟩
  rintro rfl
  obtain ⟨t, ht⟩ := exists_decodes bytes
  exact ht.eq ▸ ht

-- neither F0 80 nor 80 begins a code point, and E2 82 does
example : decode [0xF0, 0x80, 0xE2, 0x82, 65] = [replacement, replacement, replacement, 65] := by
  decide

/-! ## Line feeds -/

/-- An octet below 0x80 begins no code point but its own. -/
theorem Begins.eq_of_mem (h : Begins part) (hmem : b ∈ part)
    (hb : b.toNat < 0x80) : part = [b] := by
  obtain ⟨c, -, hpart⟩ := h
  have hoctets := (encodePoint_of_mem (hpart.subset hmem) hb).2
  rw [hoctets] at hpart
  exact hpart.eq_of_length_le (List.length_pos_iff.2 (List.ne_nil_of_mem hmem))

/-- What begins a code point does not reach across a line feed. -/
theorem Begins.prefix_of_newline (h : Begins part) (hne : bytes ≠ [])
    (hpart : part <+: bytes ++ 10 :: rest) : part <+: bytes := by
  by_cases hmem : 10 ∈ part
  · obtain rfl := h.eq_of_mem hmem (by decide)
    obtain ⟨o, bytes, rfl⟩ := List.exists_cons_of_ne_nil hne
    obtain ⟨rfl, -⟩ := List.cons_prefix_cons.1 hpart
    exact ⟨bytes, rfl⟩
  · obtain hpart | ⟨more, rfl⟩ :=
      List.prefix_or_prefix_of_prefix hpart (List.prefix_append bytes (10 :: rest))
    · exact hpart
    · rw [List.prefix_append_right_inj] at hpart
      cases more with
      | nil => exact (List.append_nil bytes).symm ▸ List.prefix_rfl
      | cons o more =>
        obtain ⟨rfl, -⟩ := List.cons_prefix_cons.1 hpart
        exact absurd (List.mem_append_right bytes List.mem_cons_self) hmem

theorem IllFormed.append_newline (h : IllFormed part rest) (behind : Bytes) :
    IllFormed part (rest ++ 10 :: behind) := by
  have hne : part ++ rest ≠ [] := List.append_ne_nil_of_left_ne_nil h.begun rest
  refine ⟨fun {c} hc hread => ?_, h.begun, h.begins, fun {longer} hlonger hlength hbegins => ?_⟩
  · rw [← List.append_assoc] at hread
    have hbegins : Begins (encodePoint c) := ⟨c, hc, List.prefix_rfl⟩
    exact h.unreadable hc (hbegins.prefix_of_newline hne hread)
  · rw [← List.append_assoc] at hlonger
    exact h.longest (hbegins.prefix_of_newline hne hlonger) hlength hbegins

theorem Decodes.append_newline (h : Decodes bytes t) (hrest : Decodes rest u) :
    Decodes (bytes ++ 10 :: rest) (t ++ ('\n' : CodePoint) :: u) := by
  induction h with
  | nil => exact .point (c := '\n') (by decide) hrest
  | point hc _ ih =>
    rw [List.append_assoc]
    exact .point hc ih
  | illFormed hpart _ ih =>
    rw [List.append_assoc]
    exact .illFormed (hpart.append_newline rest) ih

/-- A line feed is always read, whatever stands before it, and what is behind it is read on its
own. -/
theorem decode_append_newline (a b : Bytes) :
    decode (a ++ 10 :: b) = decode a ++ ('\n' : CodePoint) :: decode b :=
  ((decodes_iff.2 rfl).append_newline (decodes_iff.2 rfl)).eq.symm

theorem decode_terminated_append (lines : List Bytes) (rest : Bytes) :
    decode (lines.flatMap (· ++ [10]) ++ rest) =
      (lines.map decode).flatMap (· ++ [('\n' : CodePoint)]) ++ decode rest := by
  induction lines with
  | nil => rfl
  | cons l lines ih =>
    simp only [List.map_cons, List.flatMap_cons, List.append_assoc,
      List.cons_append, List.nil_append]
    rw [decode_append_newline, ih]

/-- Cutting a decoded text gives the decoded lines. -/
theorem split_decode (bytes : Bytes) :
    (decode bytes).split '\n' = (pieces 10 bytes).map decode := by
  obtain ⟨hlines, hrest, hbytes⟩ := Lines.cut_complete_unfinished bytes
  have hclean : ∀ l ∈ (Lines.complete bytes).map decode, ('\n' : CodePoint) ∉ l :=
    List.forall_mem_map.2 fun l hl => newline_notMem_decode (hlines l hl)
  calc (decode bytes).split '\n'
      = pieces ('\n' : CodePoint)
          (((Lines.complete bytes).map decode).flatMap (· ++ [('\n' : CodePoint)]) ++
          decode (Lines.unfinished bytes)) := by
        rw [← decode_terminated_append, ← hbytes]
    _ = (Lines.complete bytes).map decode ++ [decode (Lines.unfinished bytes)] := by
        rw [pieces_terminated_append hclean, pieces_of_notMem (newline_notMem_decode hrest)]
    _ = (pieces 10 bytes).map decode := by
        rw [← dropLast_append_getLastD_pieces 10 bytes, List.map_append]
        rfl

end Utf8

/-! ## Delivered lines -/

namespace Text

/-- A text without the carriage return at its end, if there is one. -/
def dropReturn (t : Text) : Text := if t.getLast? = some ('\r' : CodePoint) then t.dropLast else t

/-- The lines of a text that are ended, without their line ends. -/
def endedLines (t : Text) : List Text := (t.split '\n').dropLast.map dropReturn

end Text

theorem lineText_eq (line : Bytes) : lineText line = (Utf8.decode line).dropReturn := by
  unfold lineText Text.dropReturn
  dsimp only
  rcases List.eq_nil_or_concat (Utf8.decode line) with hnil | ⟨t, c, ht⟩
  · rw [hnil]
    rfl
  · simp [ht]

/-- The lines that octets end are those that their text ends. -/
theorem map_lineText_complete (bytes : Bytes) :
    (Lines.complete bytes).map lineText = (Utf8.decode bytes).endedLines := by
  rw [Text.endedLines, Utf8.split_decode, ← List.map_dropLast, List.map_map]
  exact List.map_congr_left fun l _ => lineText_eq l

theorem Run.lines_handed (run : Run) (octets : Bytes) :
    (run.handed octets).lines =
      run.lines ++ (Utf8.decode (run.follower.pending ++ octets)).endedLines := by
  rw [Run.handed, Run.lines_logLines, map_lineText_complete]
  rfl

namespace Lines

/-- Octets are decoded with one replacement for each ill-formed part, and they may be cut at their
line feeds before that or after: a line feed is read whatever stands before it, and what is behind
it is read on its own.  So a chunk delivers the ended lines of the text of what is pending and the
chunk, and whatever a follower meets, no line that it offers holds a line feed. -/
theorem map_decode_pieces :
    (∀ bytes t, Utf8.Decodes bytes t ↔ t = Utf8.decode bytes) ∧
    (∀ bytes, (pieces 10 bytes).map Utf8.decode = (Utf8.decode bytes).split '\n') ∧
    (∀ before after,
      Utf8.decode (before ++ 10 :: after) = Utf8.decode before ++ ('\n' : CodePoint) ::
        Utf8.decode after) ∧
    (∀ (take : Taker) (run : Run) (chunk : Bytes),
      (∀ t ∈ (Utf8.decode (run.follower.pending ++ chunk)).endedLines, take t = none) →
      ∃ run', Work.deliver take chunk run = .ok () run' ∧
        run'.lines = run.lines ++ (Utf8.decode (run.follower.pending ++ chunk)).endedLines) ∧
    (∀ source limit os t, (Follower.follow (Follower.start source limit) os).run.Offers t →
      ('\n' : CodePoint) ∉ t) := by
  refine ⟨fun _ _ => Utf8.decodes_iff, fun bytes => (Utf8.split_decode bytes).symm,
    Utf8.decode_append_newline, ?_, ?_⟩
  · intro take run chunk htake
    refine ⟨run.handed chunk, Work.deliver_eq fun l hl => htake _ ?_, run.lines_handed chunk⟩
    rw [← map_lineText_complete]
    exact List.mem_map_of_mem hl
  · intro source limit os t ht
    obtain ⟨line, hline, rfl⟩ := Follower.exists_line_of_offers ht
    exact newline_notMem_lineText hline

/-- Lines of which each ends in the middle of a character, the second one before a carriage
return. -/
def brokenLines : Bytes := [97, 0xE2, 0x82, 10, 0xC3, 13, 10, 0xF0, 0x9F]

/-- A log of broken lines. -/
def brokenLog : List Occasion := [⟨⟨.file 7, fun _ => ⟨brokenLines, 1, 0⟩⟩, .none, fun _ => none⟩]

theorem map_decode_brokenLines :
    (pieces 10 brokenLines).map Utf8.decode =
      [[97, Utf8.replacement], [Utf8.replacement, 13], [Utf8.replacement]] ∧
    (∃ run', Work.deliver (fun _ => none) brokenLines Work.startedRun = .ok () run' ∧
      run'.lines = [[97, 97, Utf8.replacement], [Utf8.replacement]]) ∧
    (Follower.follow (Follower.start Work.startedRun.follower.source 3) brokenLog).run.Offers
      [97, Utf8.replacement] ∧
    ('\n' : CodePoint) ∉ [97, Utf8.replacement] := by
  obtain ⟨-, hpieces, -, hdeliver, hoffers⟩ := map_decode_pieces
  have hlines :
      (Follower.follow (Follower.start Work.startedRun.follower.source 3) brokenLog).run.lines =
      [[97, Utf8.replacement], [Utf8.replacement]] := by decide +kernel
  have hoffer := Run.offers_of_mem_lines (hlines ▸ List.mem_cons_self)
  obtain ⟨run', hrun, htold⟩ := hdeliver (fun _ => none) Work.startedRun brokenLines fun _ _ => rfl
  refine ⟨(hpieces brokenLines).trans ?_, ⟨run', hrun, htold.trans ?_⟩, hoffer,
    hoffers _ _ _ _ hoffer⟩
  · decide +kernel
  · decide +kernel

end Lines

end LogRelay
