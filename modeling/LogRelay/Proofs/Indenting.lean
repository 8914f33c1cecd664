import LogRelay.Proofs.Choice
import LogRelay.Proofs.Text

/-!
# Texts that are lined up

A server message without an identifier is trimmed, and the lines behind its first one are indented.
The text that is written has the lines of the trimmed one in their places, so that taking the indent
away gives it back, and there is no blank space at its ends (`Layout.render_linesUp`).
-/

namespace LogRelay

namespace Text

variable {sep : CodePoint} {behind t : Text}

theorem replaceAll_cons (c : CodePoint) (t : Text) (old : CodePoint) (new : Text) :
    replaceAll (c :: t) old new = (if c = old then new else [c]) ++ replaceAll t old new :=
  List.flatMap_cons

theorem replaceAll_append (s t : Text) (old : CodePoint) (new : Text) :
    replaceAll (s ++ t) old new = replaceAll s old new ++ replaceAll t old new :=
  List.flatMap_append

/-- What is put behind every separator stands at the front of every piece but the first. -/
theorem pieces_replaceAll (h : sep ∉ behind) (t : Text) :
    ∃ first later, pieces sep t = first :: later ∧
    pieces sep (replaceAll t sep (sep :: behind)) = first :: later.map (behind ++ ·) := by
  induction t with
  | nil => exact ⟨[], [], rfl, rfl⟩
  | cons c t ih =>
    obtain ⟨first, later, hpieces, hreplaced⟩ := ih
    rw [replaceAll_cons]
    by_cases hc : c = sep
    · have hnext := pieces_append_of_notMem h hreplaced
      rw [if_pos hc, hc]
      refine ⟨[], first :: later, ?_, ?_⟩
      · rw [pieces_cons_sep, hpieces]
      · rw [List.cons_append, pieces_cons_sep, hnext, List.map_cons]
    · rw [if_neg hc]
      refine ⟨c :: first, later, ?_, ?_⟩
      · rw [pieces_cons, hpieces, consPiece_of_ne hc]
      · rw [List.singleton_append, pieces_cons, hreplaced, consPiece_of_ne hc]

/-- Replacing blank space does not touch the ends of a trimmed text. -/
theorem Trimmed.replaceAll {new : Text} (h : Trimmed t) (hsep : isBlank sep) :
    Trimmed (replaceAll t sep new) := by
  have hkept (c : CodePoint) (hblank : ¬ isBlank c) : Text.replaceAll [c] sep new = [c] := by
    have hc : c ≠ sep := by
      rintro rfl
      exact hblank hsep
    rw [replaceAll_cons, if_neg hc]
    rfl
  refine ⟨?head, ?last⟩
  case head =>
    intro d hd
    cases t with
    | nil => cases hd
    | cons c t =>
      have hblank := h.head c rfl
      rw [← List.singleton_append, replaceAll_append, hkept c hblank, List.singleton_append,
        List.head?_cons] at hd
      exact Option.some.inj hd ▸ hblank
  case last =>
    intro d hd
    obtain rfl | ⟨init, c, rfl⟩ := t.eq_nil_or_concat'
    · cases hd
    · have hblank := h.last c (by simp)
      rw [replaceAll_append, hkept c hblank, List.getLast?_concat] at hd
      exact Option.some.inj hd ▸ hblank

end Text

namespace Layout

variable {m : Message} {t : Text}

/-- Takes the indent away from every line but the first. -/
def unindented (t : Text) : Text :=
  match t.split '\n' with
  | [] => []
  | first :: later => Text.joinWith "\n" (first :: later.map (·.drop 25))

/-- A text has the lines of another one, every one but the first behind 25 spaces, and no blank
space at its ends. -/
structure LinesUp (t body : Text) : Prop where
  lines : ∃ first later, t.split '\n' = first :: later ∧
    body.split '\n' = first :: later.map (List.replicate 25 (' ' : CodePoint) ++ ·)
  unindented : unindented body = t
  trimmed : body.Trimmed

theorem linesUp_indented (t : Text) : LinesUp t.strip (indented t) := by
  have hindent : ('\n' : CodePoint) ∉ continuationIndent := by decide
  obtain ⟨first, later, hsplit, hindented⟩ := Text.pieces_replaceAll hindent t.strip
  have hlines : (indented t).split '\n' = first :: later.map (continuationIndent ++ ·) := hindented
  refine ⟨⟨first, later, hsplit, hlines⟩, ?_, ?_⟩
  · have hdrop (l : Text) : (continuationIndent ++ l).drop 25 = l := List.drop_left' rfl
    rw [unindented, hlines]
    simp only [List.map_map, Function.comp_def, hdrop, List.map_id']
    rw [← hsplit]
    exact intercalate_pieces _ _
  · obtain ⟨_, _, -, -, -, htrimmed⟩ := Text.exists_strip t
    exact htrimmed.replaceAll (by decide)

/-- What a server message without inserts is written as behind its time: the text as it is if the
message has an identifier, and otherwise its lines, trimmed and lined up. -/
theorem render_linesUp (hbare : Insert.IsBare m)
    (htype : m.get? "type" = some (.text "liberty_message"))
    (htext : m.get? "message" = some (.text t)) (line : Text) :
    ∃ body, (render .basic line (.record m)).text = timestamp m ++ " " ++ body ∧
      (m.has "ibm_messageId" → body = t) ∧ (¬ m.has "ibm_messageId" → LinesUp t.strip body) := by
  have hserver : IsServer m :=
    ⟨Message.text_of_get?_eq_text htype, Message.isTextual_of_get?_eq_text htext⟩
  have hwritten : timestamp m ++ " " ++ (if m.has "ibm_messageId" then m.text "message" else
      indented (m.text "message")) = (basic line (.record m)).text :=
    (Prescribed.server hbare.fits hbare.bare hserver (stamped_iff.2 rfl)).eq_text_basic
  rw [Message.text_of_get?_eq_text htext] at hwritten
  refine ⟨_, hwritten.symm, fun hid => if_pos hid, fun hid => ?_⟩
  rw [if_neg hid]
  exact linesUp_indented t

/-- A server message without an identifier: three lines, of which one is empty, between blank
space. -/
def brokenMembers : List (Text × Json) :=
  [("type", .text "liberty_message"), ("ibm_datetime", .text "10:00+0000"),
    ("ibm_arithInsert1", .int 0), ("ibm_messageId", .null),
    ("message", .text " cause\n\n   at top\u2028")]

theorem render_brokenMembers : Insert.IsBare ⟨brokenMembers⟩ ∧
    Message.get? ⟨brokenMembers⟩ "type" = some (.text "liberty_message") ∧
    Message.get? ⟨brokenMembers⟩ "message" = some (.text " cause\n\n   at top\u2028") ∧
    ∃ body, (render .basic [] (.record ⟨brokenMembers⟩)).text = "10:00Z" ++ " " ++ body ∧
      LinesUp "cause\n\n   at top" body := by
  have hbare : Insert.IsBare ⟨brokenMembers⟩ := Insert.isBare_iff.2 (by rfl)
  have htype : Message.get? ⟨brokenMembers⟩ "type" = some (.text "liberty_message") := by rfl
  have htext : Message.get? ⟨brokenMembers⟩ "message" =
      some (.text " cause\n\n   at top\u2028") := by rfl
  have hid : ¬ Message.has ⟨brokenMembers⟩ "ibm_messageId" := by decide
  have htrimmed : Text.strip " cause\n\n   at top\u2028" = "cause\n\n   at top" := by decide
  have htime : timestamp ⟨brokenMembers⟩ = "10:00Z" := by decide
  obtain ⟨body, hwritten, -, hlines⟩ := render_linesUp hbare htype htext []
  rw [htime] at hwritten
  rw [htrimmed] at hlines
  exact ⟨hbare, htype, htext, body, hwritten, hlines hid⟩

end Layout

end LogRelay
