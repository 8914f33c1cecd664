import LogRelay.Proofs.Escapes
import LogRelay.Proofs.Record

/-!
# What a line is decoded to

A line is taken for a record exactly if it begins with a brace.  It then has a record or the wording
of an error, and what it reads as is never anything but an object, however deep values may nest
(`Entry.ofLine_classifies`).

The readers of JSON run on fuel, but it is no bound: two readings agree as soon as the fuel of each
covers the text that is left (`Json.value_congr`), so that no error stands for want of it.
-/

namespace LogRelay

namespace Json

variable {s rest : Text} {v : Json} {fuel fuel' depth : Nat} {read : List (Text × Json)}

/-! ## What is left -/

theorem length_skipSpace_le (s : Text) : (skipSpace s).length ≤ s.length :=
  (skipSpace_suffix s).length_le

theorem length_le_of_value (h : value fuel depth s = .ok (v, rest)) : rest.length ≤ s.length := by
  -- what is taken leaves a suffix, whichever surrogate one asks about
  have hsurrogate : (CodePoint.ofNat 0xD800).isSurrogate := by decide
  exact ((taken_of_isSurrogate hsurrogate fuel).1 h).suffix.length_le

theorem length_le_of_string {t : Text} (h : string s = .ok (t, rest)) : rest.length ≤ s.length :=
  (stringFrom_suffix h).length_le

theorem length_lt_of_skipSpace {c : CodePoint} {after : Text} (h : skipSpace s = c :: after) :
    after.length < s.length := by
  have hle := length_skipSpace_le s
  rw [h, List.length_cons] at hle
  omega

/-! ## Fuel -/

/-- Two amounts of fuel come to the same value of every text that both cover. -/
def ValuesAgree (fuel fuel' : Nat) : Prop :=
  ∀ depth s, 2 * s.length + 1 ≤ fuel → 2 * s.length + 1 ≤ fuel' →
    value fuel depth s = value fuel' depth s

/-- Two amounts of fuel come to the same array. -/
def ItemsAgree (fuel fuel' : Nat) : Prop :=
  ∀ depth read s, 2 * s.length + 2 ≤ fuel → 2 * s.length + 2 ≤ fuel' →
    items fuel depth read s = items fuel' depth read s

/-- Two amounts of fuel come to the same object. -/
def MembersAgree (fuel fuel' : Nat) : Prop :=
  ∀ depth read s, 2 * s.length + 2 ≤ fuel → 2 * s.length + 2 ≤ fuel' →
    members fuel depth read s = members fuel' depth read s

/-- A container that is opened is the same if the rest of it is. -/
theorem opened_congr (closing : CodePoint) (empty : Json)
    (next next' : Text → Except Fault (Json × Text))
    (h : ∀ t : Text, t.length ≤ s.length → next t = next' t) :
    (match skipSpace s with
      | [] => next []
      | d :: after => if d = closing then .ok (empty, after) else next (d :: after)) =
    (match skipSpace s with
      | [] => next' []
      | d :: after => if d = closing then .ok (empty, after) else next' (d :: after)) := by
  have hle := length_skipSpace_le s
  cases hs : skipSpace s with
  | nil => exact h [] (Nat.zero_le _)
  | cons d after =>
    rw [hs] at hle
    dsimp only
    rw [h (d :: after) hle]

theorem ValuesAgree.succ (hitems : ItemsAgree fuel fuel') (hmembers : MembersAgree fuel fuel') :
    ValuesAgree (fuel + 1) (fuel' + 1) := by
  intro depth s hfuel hfuel'
  rw [value.eq_def, value.eq_def]
  dsimp only
  cases s with
  | nil => rfl
  | cons c rest =>
    rw [List.length_cons] at hfuel hfuel'
    have hobject (t : Text) (ht : t.length ≤ rest.length) :
        members fuel (depth - 1) [] t = members fuel' (depth - 1) [] t :=
      hmembers _ _ t (by omega) (by omega)
    have harray (t : Text) (ht : t.length ≤ rest.length) :
        items fuel (depth - 1) [] t = items fuel' (depth - 1) [] t :=
      hitems _ _ t (by omega) (by omega)
    dsimp only
    split_ifs
    · rfl
    · rfl
    · exact opened_congr '\x7d' (.object []) _ _ hobject
    · rfl
    · exact opened_congr ']' (.array []) _ _ harray
    · rfl

theorem ItemsAgree.succ (hvalues : ValuesAgree fuel fuel') (hitems : ItemsAgree fuel fuel') :
    ItemsAgree (fuel + 1) (fuel' + 1) := by
  intro depth read s hfuel hfuel'
  rw [items.eq_def, items.eq_def]
  dsimp only
  rw [hvalues depth s (by omega) (by omega)]
  cases hv : value fuel' depth s with
  | error e => rfl
  | ok found =>
    obtain ⟨v, rest⟩ := found
    have hrest := length_le_of_value hv
    dsimp only
    cases hs : skipSpace rest with
    | nil => rfl
    | cons c after =>
      have hafter := length_lt_of_skipSpace hs
      have hskip := length_skipSpace_le after
      dsimp only
      rw [hitems depth (v :: read) (skipSpace after) (by omega) (by omega)]

theorem MembersAgree.succ (hvalues : ValuesAgree fuel fuel') (hmembers : MembersAgree fuel fuel') :
    MembersAgree (fuel + 1) (fuel' + 1) := by
  intro depth read s hfuel hfuel'
  rw [members.eq_def, members.eq_def]
  dsimp only
  cases s with
  | nil => rfl
  | cons q behind =>
    rw [List.length_cons] at hfuel hfuel'
    dsimp only
    cases hkey : string behind with
    | error e => rfl
    | ok found =>
      obtain ⟨key, left⟩ := found
      have hleft := length_le_of_string hkey
      dsimp only
      cases hs : skipSpace left with
      | nil => rfl
      | cons c after =>
        have hafter := length_lt_of_skipSpace hs
        have hskip := length_skipSpace_le after
        dsimp only
        rw [hvalues depth (skipSpace after) (by omega) (by omega)]
        cases hv : value fuel' depth (skipSpace after) with
        | error e => rfl
        | ok found =>
          obtain ⟨v, rest⟩ := found
          have hrest := length_le_of_value hv
          dsimp only
          cases hs' : skipSpace rest with
          | nil => rfl
          | cons d more =>
            have hmore := length_lt_of_skipSpace hs'
            have hskip' := length_skipSpace_le more
            dsimp only
            rw [hmembers depth ((key, v) :: read) (skipSpace more) (by omega) (by omega)]

/-- The readers agree, by induction on the fuel of one of them. -/
theorem values_agree (fuel fuel' : Nat) :
    ValuesAgree fuel fuel' ∧ ItemsAgree fuel fuel' ∧ MembersAgree fuel fuel' := by
  induction fuel generalizing fuel' with
  | zero =>
    refine ⟨?_, ?_, ?_⟩
    · exact fun _ _ h => absurd h (by omega)
    · exact fun _ _ _ h => absurd h (by omega)
    · exact fun _ _ _ h => absurd h (by omega)
  | succ fuel ih =>
    cases fuel' with
    | zero =>
      refine ⟨?_, ?_, ?_⟩
      · exact fun _ _ _ h => absurd h (by omega)
      · exact fun _ _ _ _ h => absurd h (by omega)
      · exact fun _ _ _ _ h => absurd h (by omega)
    | succ fuel' =>
      obtain ⟨hvalues, hitems, hmembers⟩ := ih fuel'
      exact ⟨.succ hitems hmembers, .succ hvalues hitems, .succ hvalues hmembers⟩

/-- What a text is read as does not depend on the fuel that covers it. -/
theorem parseWithin_congr (h : 2 * s.length + 1 ≤ fuel)
    (h' : 2 * s.length + 1 ≤ fuel') (depth : Nat) :
    parseWithin fuel depth s = parseWithin fuel' depth s := by
  have hle := length_skipSpace_le s
  have hvalue := (values_agree fuel fuel').1 depth (skipSpace s) (by omega) (by omega)
  rw [parseWithin, parseWithin, hvalue]

theorem parseWithin_eq_parse (h : 2 * s.length + 1 ≤ fuel) :
    parseWithin fuel depthLimit s = parse s := by
  rw [parse_eq]
  exact parseWithin_congr h (Nat.le_succ _) depthLimit

/-! ## Wordings -/

theorem Fault.message_ne_nil (whole : Text) (fault : Fault) : fault.message whole ≠ [] := by
  cases fault with
  | malformed reason rest =>
    have hcolon : (": " : Text) ≠ [] := by decide
    simp [message, hcolon]
  | tooManyDigits count =>
    have hopening : ("Exceeds the limit (" : Text) ≠ [] := by decide
    simp [message, hopening]
  | tooDeep isObject =>
    have hopening : ("maximum recursion depth exceeded while decoding a JSON " : Text) ≠ [] := by
      decide
    simp [message, hopening]

end Json

/-! ## Classification -/

namespace Entry

variable {line : Text} {e : Entry}

/-- The line begins with a brace. -/
def IsBraced (line : Text) : Prop := ∃ rest, line = ('\x7b' : CodePoint) :: rest

theorem isStructured_iff : isStructured line ↔ IsBraced line := by
  cases line with
  | nil => simp [isStructured, IsBraced]
  | cons c rest => simp [isStructured, IsBraced]

/-- What a line holds, by whether it begins with a brace and what the reader then makes of it. -/
inductive HeldBy (line : Text) : Entry → Prop
  | plain (bare : ¬ IsBraced line) : HeldBy line .plain
  | record {ms : List (Text × Json)} (braced : IsBraced line)
      (parse : Json.parse line = .ok (.object ms)) :
      HeldBy line (.record ⟨ms⟩)
  | undecodable {fault : Json.Fault} (braced : IsBraced line)
      (parse : Json.parse line = .error fault) :
      HeldBy line (.undecodable (.malformed fault))

theorem heldBy_ofLine (line : Text) : HeldBy line (ofLine line) := by
  unfold ofLine decode
  split
  · next hstructured =>
    obtain ⟨rest, rfl⟩ := isStructured_iff.1 hstructured
    have hbraced : IsBraced ('\x7b' :: rest) := ⟨rest, rfl⟩
    cases hparse : Json.parse ('\x7b' :: rest) with
    | error fault => exact .undecodable hbraced hparse
    | ok v =>
      -- a value that begins with a brace is an object, so the other kinds need no case
      obtain ⟨ms, rfl, -⟩ := Json.nodup_of_parseWithin hparse
      exact .record hbraced hparse
  · next hplain => exact .plain (mt isStructured_iff.2 hplain)

/-- The parts of the classification of a line fit together and say what the line reads as. -/
structure Classifies (line : Text) (e : Entry) : Prop where
  marked : e.isMarked ↔ IsBraced line
  /-- A line that was taken for a record has a record or an error, and not both. -/
  decoded : e.isMarked → (∃ m, e.message? = some m ∧ e.error? line = none) ∨
    ∃ t, t ≠ [] ∧ e.message? = none ∧ e.error? line = some t
  plain : ¬ e.isMarked → e.message? = none ∧ e.error? line = none
  message : ∀ m, e.message? = some m ↔ e.isMarked ∧ Json.parse line = .ok (.object m.members)
  /-- An error is one of the reader. -/
  error : ∀ t, e.error? line = some t ↔
    e.isMarked ∧ ∃ fault, Json.parse line = .error fault ∧ t = fault.message line

theorem HeldBy.classifies (h : HeldBy line e) : Classifies line e := by
  cases h with
  | plain bare =>
    refine ⟨?_, ?_, ?_, ?_, ?_⟩
    · simpa [isMarked] using bare
    · exact fun h => absurd h Bool.false_ne_true
    · exact fun _ => ⟨rfl, rfl⟩
    · simp [message?, isMarked]
    · simp [error?, isMarked]
  | @record ms braced parse =>
    refine ⟨?_, ?_, ?_, ?_, ?_⟩
    · simpa [isMarked] using braced
    · exact fun _ => .inl ⟨⟨ms⟩, rfl, rfl⟩
    · exact fun h => absurd rfl h
    · rintro ⟨members⟩
      simp [message?, isMarked, parse]
    · simp [error?, parse]
  | @undecodable fault braced parse =>
    refine ⟨?_, ?_, ?_, ?_, ?_⟩
    · simpa [isMarked] using braced
    · exact fun _ => .inr ⟨_, fault.message_ne_nil line, rfl, rfl⟩
    · exact fun h => absurd rfl h
    · simp [message?, parse]
    · simp [error?, isMarked, parse, Undecodable.message, eq_comm]

theorem HeldBy.ne_notObject (h : HeldBy line e) (v : Json) : e ≠ .undecodable (.notObject v) := by
  cases h with
  | plain | record | undecodable => exact nofun

theorem message?_ofLine (line : Text) : Message.ofLine? line = (ofLine line).message? := by
  unfold Message.ofLine? ofLine
  split
  · cases decode line <;> rfl
  · rfl

/-- Every line is classified coherently, with the same record that it stands for by itself.  A line
that begins with a brace reads as an object with distinct keys or not at all, whatever the bounds on
its reading are, so there is never a value of another kind to refuse; and no error is for want of
fuel. -/
theorem ofLine_classifies (line : Text) :
    Classifies line (ofLine line) ∧ Message.ofLine? line = (ofLine line).message? ∧
    (∀ v, ofLine line ≠ .undecodable (.notObject v)) ∧
    (IsBraced line → ∀ fuel depth v, Json.parseWithin fuel depth line = .ok v →
      ∃ ms, v = .object ms ∧ (ms.map Prod.fst).Nodup) ∧
    ∀ fuel, 2 * line.length + 1 ≤ fuel →
    Json.parseWithin fuel Json.depthLimit line = Json.parse line := by
  have hheld := heldBy_ofLine line
  refine ⟨hheld.classifies, message?_ofLine line, hheld.ne_notObject, ?_, ?_⟩
  · rintro ⟨rest, rfl⟩ fuel depth v hparse
    exact Json.nodup_of_parseWithin hparse
  · exact fun fuel h => Json.parseWithin_eq_parse h

end Entry

end LogRelay
