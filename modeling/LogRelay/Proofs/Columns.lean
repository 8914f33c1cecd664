import LogRelay.Proofs.Choice
import LogRelay.Proofs.Pieces

/-!
# The columns of trace lines

Behind time and thread a trace line has a name column of 13 characters, a code of one and the fields
of its level, whatever the names and the level are (`Layout.render_columns`).  The name is what
stands behind the last dot of a dotted one, cut to the width of the column or filled with spaces.
-/

namespace LogRelay

namespace Text

theorem length_padRight {width : Nat} {t : Text} (h : t.length ≤ width) :
    (padRight width t).length = width := by
  rw [padRight, List.length_append, List.length_replicate]
  omega

theorem joinWith_cons (sep t : Text) {parts : List Text} (h : parts ≠ []) :
    joinWith sep (t :: parts) = t ++ sep ++ joinWith sep parts := by
  obtain ⟨u, parts, rfl⟩ := List.exists_cons_of_ne_nil h
  exact List.intercalate_cons_cons

end Text

namespace Layout

variable {m : Message} {dotted part level : Text}

/-! ## Names -/

/-- What stands behind the last dot, or all of it if there is no dot. -/
structure IsLastPart (dotted part : Text) : Prop where
  dotless : ('.' : CodePoint) ∉ part
  ends : dotted = part ∨ ∃ before, dotted = before ++ ('.' : CodePoint) :: part

/-- A name column: 13 characters without a dot, the first ones of the last part and then spaces. -/
structure IsColumn (dotted column : Text) : Prop where
  width : column.length = 13
  dotless : ('.' : CodePoint) ∉ column
  name : ∃ part, IsLastPart dotted part ∧
    column = part.take 13 ++ List.replicate (13 - part.length) (' ' : CodePoint)

theorem isLastPart_getLast? (dotted : Text) :
    IsLastPart dotted ((dotted.split '.').getLast?.getD []) := by
  have hjoined := flatMap_dropLast_append_getLastD ('.' : CodePoint) dotted
  have hlast := dropLast_append_getLastD_pieces ('.' : CodePoint) dotted
  refine ⟨notMem_of_mem_pieces (hlast ▸ List.mem_concat_self), ?_⟩
  obtain hnone | ⟨init, p, hsome⟩ := (dotted.split '.').dropLast.eq_nil_or_concat'
  · left
    rw [hnone, List.flatMap_nil, List.nil_append] at hjoined
    exact hjoined.symm
  · right
    refine ⟨init.flatMap (· ++ [('.' : CodePoint)]) ++ p, ?_⟩
    rw [hsome, List.flatMap_append, List.flatMap_singleton] at hjoined
    simpa using hjoined.symm

theorem IsLastPart.isColumn (h : IsLastPart dotted part) :
    IsColumn dotted (Text.padRight 13 (part.take 13)) := by
  have hlength : (part.take 13).length ≤ 13 := List.length_take_le 13 part
  refine ⟨Text.length_padRight hlength, ?_, part, h, ?_⟩
  · intro hdot
    obtain hname | hspace := List.mem_append.1 hdot
    · exact h.dotless (List.mem_of_mem_take hname)
    · exact absurd (List.eq_of_mem_replicate hspace) (by decide)
  · have hspaces : 13 - (part.take 13).length = 13 - part.length := by
      rw [List.length_take]
      omega
    rw [Text.padRight, hspaces]

theorem isColumn_nameColumn (dotted : Text) : IsColumn dotted (nameColumn dotted) :=
  (isLastPart_getLast? dotted).isColumn

/-! ## Codes -/

/-- The code that a level has in the table, or the first character of one that has none there. -/
def IsCode (level : Text) (code : CodePoint) : Prop :=
  codes.lookup level = some [code] ∨ codes.lookup level = none ∧ level.head? = some code

theorem exists_isCode (h : level ≠ []) : ∃ code, IsCode level code ∧
    (codes.lookup level).getD (level.take 1) = [code] := by
  cases hlevel : TraceLevel.ofName? level with
  | some l =>
    obtain rfl := eq_name_of_ofName? hlevel
    rw [lookup_codes_name]
    exact ⟨l.code, .inl (lookup_codes_name l), rfl⟩
  | none =>
    have hnone := lookup_codes_of_forall_ne (ofName?_eq_none_iff.1 hlevel)
    obtain ⟨c, rest, rfl⟩ := List.exists_cons_of_ne_nil h
    rw [hnone]
    exact ⟨c, .inr ⟨hnone, rfl⟩, rfl⟩

/-! ## Lines -/

theorem bodyMembers_ne_nil (level : Text) : bodyMembers level ≠ [] := by
  unfold bodyMembers
  split_ifs
  · exact List.cons_ne_nil _ _
  · exact List.cons_ne_nil _ _
  · exact List.cons_ne_nil _ _

/-- A trace record without inserts is written in columns: its time and its thread, the name that its
level asks for, the code of the level, and the fields that the level has. -/
theorem render_columns (hbare : Insert.IsBare m) (htrace : IsTrace m level) (line : Text) :
    ∃ column code, IsColumn (m.text (columnMember level)) column ∧ IsCode level code ∧
      (render .basic line (.record m)).text = timestamp m ++ " " ++ m.text "ibm_threadId" ++
        " " ++ column ++ " " ++
        [code] ++ " " ++ Text.joinWith " " ((bodyMembers level).map (m.text ·)) := by
  obtain ⟨code, hcode, hcell⟩ := exists_isCode htrace.2.2.1
  have hwritten : Text.joinWith " " (traceCells m (timestamp m) level) =
      (basic line (.record m)).text :=
    (Prescribed.trace hbare.fits hbare.bare htrace (stamped_iff.2 rfl)).eq_text_basic
  have hbody : (bodyMembers level).map (m.text ·) ≠ [] :=
    mt List.map_eq_nil_iff.1 (bodyMembers_ne_nil level)
  refine ⟨_, code, isColumn_nameColumn _, hcode, hwritten.symm.trans ?_⟩
  unfold traceCells
  rw [hcell, List.cons_append, List.cons_append, List.cons_append,
    List.cons_append, List.nil_append, Text.joinWith_cons _ _ (List.cons_ne_nil _ _),
    Text.joinWith_cons _ _ (List.cons_ne_nil _ _), Text.joinWith_cons _ _ (List.cons_ne_nil _ _),
    Text.joinWith_cons _ _ hbody]
  simp only [List.append_assoc]

/-- A trace record of a level without a code of its own, with a long name and members that are
absent or null. -/
def severeMembers : List (Text × Json) :=
  [("type", .text "liberty_trace"), ("loglevel", .text "SEVERE"),
    ("module", .text "com.ibm.ConnectionManager"), ("ibm_className", .null),
    ("ibm_threadId", .text "2a"), ("message", .text "m"), ("ibm_datetime", .text "10:00+0000")]

theorem render_severeMembers : Insert.IsBare ⟨severeMembers⟩ ∧ IsTrace ⟨severeMembers⟩ "SEVERE" ∧
    ∃ column code, IsColumn "com.ibm.ConnectionManager" column ∧ IsCode "SEVERE" code ∧
      (render .basic [] (.record ⟨severeMembers⟩)).text =
        "10:00Z" ++ " " ++ "2a" ++ " " ++ column ++ " " ++
        [code] ++ " " ++ Text.joinWith " " [[], [], "m"] := by
  have hbare : Insert.IsBare ⟨severeMembers⟩ := Insert.isBare_iff.2 (by rfl)
  have hfields : TraceFields.ofMessage ⟨severeMembers⟩ =
      .ok ⟨"2a", "com.ibm.ConnectionManager", [], [], "m"⟩ := by rfl
  have htrace : IsTrace ⟨severeMembers⟩ "SEVERE" :=
    ⟨by decide, by rfl, by decide, isTextual_of_ofMessage hfields⟩
  exact ⟨hbare, htrace, render_columns hbare htrace []⟩

end Layout

end LogRelay
