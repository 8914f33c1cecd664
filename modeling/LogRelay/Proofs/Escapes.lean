import LogRelay.Proofs.Json
import Mathlib.Data.List.TakeDrop

/-!
# Where a surrogate comes from

What JSON is read from makes the texts of the value: every code point of them stands in what is
read, unless an escape stands for it.  A surrogate that does not stand there needs an escape by
number (`supplies_of_parse`).
-/

namespace LogRelay.Json

/-! ## What is left and what is held -/

/-- A code point stands in one of the texts of a value, the keys included. -/
inductive Holds (c : CodePoint) : Json → Prop where
  | text {t : Text} (h : c ∈ t) : Holds c (.text t)
  | item {items : List Json} {v : Json} (hv : v ∈ items) (h : Holds c v) : Holds c (.array items)
  | key {members : List (Text × Json)} {k : Text} {v : Json} (hv : (k, v) ∈ members) (h : c ∈ k) :
      Holds c (.object members)
  | member {members : List (Text × Json)} {k : Text} {v : Json} (hv : (k, v) ∈ members)
      (h : Holds c v) :
      Holds c (.object members)

/-- A code point stands in a text, or an escape by number does. -/
def Supplies (c : CodePoint) (s : Text) : Prop := c ∈ s ∨ (['\\', 'u'] : Text) <:+: s

section Reading

variable {c : CodePoint} {s t rest opening read : Text} {lead negative : Bool} {v : Json}
  {fuel depth : Nat}

theorem Supplies.of_suffix (h : Supplies c rest) (hs : rest <:+ s) : Supplies c s := by
  obtain hmem | hescape := h
  · exact .inl (hs.subset hmem)
  · exact .inr (hescape.trans hs.isInfix)

theorem skipSpace_suffix (s : Text) : skipSpace s <:+ s := List.dropWhile_suffix _

theorem stringFrom_suffix (h : stringFrom opening lead read s = .ok (t, rest)) : rest <:+ s := by
  fun_induction stringFrom opening lead read s with
  | case2 =>
    cases h
    exact List.suffix_cons _ _
  | case6 lead read h₁ h₂ h₃ h₄ more n hn hmore _ _ ih =>
    exact (ih h).trans ⟨['\\', 'u', h₁, h₂, h₃, h₄], rfl⟩
  | case9 lead read e after _ d _ _ _ ih => exact (ih h).trans ⟨['\\', e], rfl⟩
  | case11 lead read c rest' _ _ _ ih => exact (ih h).trans (List.suffix_cons _ _)
  | _ => cases h

/-- A short escape stands for itself or for a control character. -/
theorem eq_of_shortEscape? {e d : CodePoint} (h : shortEscape? e = some d) :
    d = e ∨ d.val < 32 := by
  unfold shortEscape? at h
  split_ifs at h
  all_goals obtain rfl := Option.some.inj h
  · exact .inl rfl
  all_goals exact .inr (by decide)

theorem supplies_of_stringFrom (h : stringFrom opening lead read s = .ok (t, rest)) (hc : c ∈ t)
    (hs : c.isSurrogate) : c ∈ read ∨ Supplies c s := by
  fun_induction stringFrom opening lead read s with
  | case2 =>
    cases h
    exact .inl (List.mem_reverse.1 hc)
  | case6 lead read h₁ h₂ h₃ h₄ more n hn hmore _ _ ih =>
    -- the escape stands at the front, whatever is read behind it
    exact .inr (.inr ⟨[], h₁ :: h₂ :: h₃ :: h₄ :: more, rfl⟩)
  | case9 lead read e after _ d hd _ _ ih =>
    obtain hread | hafter := ih h
    · obtain rfl | hread := List.mem_cons.1 hread
      · obtain rfl | hcontrol := eq_of_shortEscape? hd
        · exact .inr (.inl (by simp))
        · rw [CodePoint.isSurrogate_iff] at hs
          omega
      · exact .inl hread
    · exact .inr (hafter.of_suffix ⟨['\\', e], rfl⟩)
  | case11 lead read d rest' _ _ _ ih =>
    obtain hread | hafter := ih h
    · obtain rfl | hread := List.mem_cons.1 hread
      · exact .inr (.inl List.mem_cons_self)
      · exact .inl hread
    · exact .inr (hafter.of_suffix (List.suffix_cons _ _))
  | _ => cases h

theorem digitSpan_suffix (s : Text) : (digitSpan s).2 <:+ s := by
  rw [digitSpan, List.span_eq_takeWhile_dropWhile]
  exact List.dropWhile_suffix _

theorem fractionSpan_suffix {found : Text × Text} (h : fractionSpan s = some found) :
    found.2 <:+ s := by
  unfold fractionSpan at h
  split at h
  · next d after =>
    split_ifs at h
    split at h
    · cases h
    · obtain rfl := Option.some.inj h
      exact (digitSpan_suffix after).trans (List.suffix_cons _ _)
  · cases h

theorem signSpan_suffix (s : Text) : (signSpan s).2 <:+ s := by
  unfold signSpan
  split
  · next d after =>
    split_ifs
    · exact List.suffix_cons _ _
    · exact List.suffix_cons _ _
    · exact List.suffix_rfl
  · exact List.suffix_rfl

theorem exponentSpan_suffix {found : Int × Text} (h : exponentSpan s = some found) :
    found.2 <:+ s := by
  unfold exponentSpan at h
  split at h
  · next e after =>
    split_ifs at h
    dsimp only at h
    split at h
    · cases h
    · next ds left _ hspan =>
      obtain rfl := Option.some.inj h
      have hleft : left <:+ (signSpan after).2 := by
        have hdigits := digitSpan_suffix (signSpan after).2
        rwa [hspan] at hdigits
      exact hleft.trans ((signSpan_suffix after).trans (List.suffix_cons _ _))
  · cases h

theorem wholeSpan_suffix (s : Text) : (wholeSpan s).2 <:+ s := by
  unfold wholeSpan
  split
  · next d after =>
    split_ifs
    · exact List.suffix_cons _ _
    · exact digitSpan_suffix _
  · exact List.suffix_rfl

/-- A number holds no code point. -/
theorem number_suffix {whole : Text} (h : number whole negative s = .ok (v, rest)) :
    rest <:+ s ∧ ¬ v.Holds c := by
  have hwhole := wholeSpan_suffix s
  have hfraction : ((fractionSpan (wholeSpan s).2).map Prod.snd).getD (wholeSpan s).2 <:+ s := by
    cases hf : fractionSpan (wholeSpan s).2 with
    | none => exact hwhole
    | some found => exact (fractionSpan_suffix hf).trans hwhole
  unfold number at h
  dsimp only at h
  split at h
  · cases h
  · split at h
    · split at h
      · cases h
      · obtain ⟨rfl, rfl⟩ := Prod.mk.inj (Except.ok.inj h)
        exact ⟨hwhole, by rintro ⟨⟩⟩
    · obtain ⟨rfl, rfl⟩ := Prod.mk.inj (Except.ok.inj h)
      refine ⟨?_, by rintro ⟨⟩⟩
      cases hpower :
          exponentSpan (((fractionSpan (wholeSpan s).2).map Prod.snd).getD (wholeSpan s).2) with
      | none => exact hfraction
      | some found => exact (exponentSpan_suffix hpower).trans hfraction

theorem not_holds_of_mem_words {entry : Text × Json} (h : entry ∈ words) : ¬ entry.2.Holds c := by
  simp only [words, List.mem_cons, List.not_mem_nil, or_false] at h
  rcases h with rfl | rfl | rfl | rfl | rfl | rfl <;> rintro ⟨⟩

/-- A word or a number holds no code point. -/
theorem scalar_suffix (h : scalar s = .ok (v, rest)) : rest <:+ s ∧ ¬ v.Holds c := by
  unfold scalar at h
  split at h
  · next word w hfound =>
    obtain ⟨rfl, rfl⟩ := Prod.mk.inj (Except.ok.inj h)
    exact ⟨List.drop_suffix _ _, not_holds_of_mem_words (List.mem_of_find?_eq_some hfound)⟩
  · split at h
    · next d after =>
      split at h
      · exact (number_suffix h).imp_left fun hsuffix => hsuffix.trans (List.suffix_cons _ _)
      · exact number_suffix h
    · cases h

/-! ## Values -/

theorem mem_of_mem_putMember {α : Type} {key k : Text} {value w : α} {members : List (Text × α)}
    (h : (k, w) ∈ putMember key value members) : (k, w) = (key, value) ∨ (k, w) ∈ members := by
  fun_induction putMember key value members with
  | case1 => exact .inl (List.mem_singleton.1 h)
  | case2 rest old =>
    obtain hhead | htail := List.mem_cons.1 h
    · exact .inl hhead
    · exact .inr (List.mem_cons_of_mem _ htail)
  | case3 k' old rest _ ih =>
    obtain hhead | htail := List.mem_cons.1 h
    · exact .inr (hhead ▸ List.mem_cons_self)
    · exact (ih htail).imp_right (List.mem_cons_of_mem _)

theorem mem_of_mem_collapse {α : Type} {k : Text} {w : α} {members : List (Text × α)}
    (h : (k, w) ∈ collapse members) : (k, w) ∈ members := by
  suffices hfold : ∀ before : List (Text × α),
      (k, w) ∈ members.foldl (fun ms m => putMember m.1 m.2 ms) before → (k, w) ∈ before ∨
      (k, w) ∈ members by
    exact (hfold [] h).resolve_left List.not_mem_nil
  clear h
  induction members with
  | nil => exact fun before h => .inl h
  | cons m members ih =>
    intro before h
    obtain hput | htail := ih _ h
    · obtain heq | hbefore := mem_of_mem_putMember hput
      · exact .inr (heq ▸ List.mem_cons_self)
      · exact .inl hbefore
    · exact .inr (List.mem_cons_of_mem _ htail)

theorem holds_array_cons {items : List Json} (h : (Json.array (v :: items)).Holds c) :
    v.Holds c ∨ (Json.array items).Holds c := by
  cases h with
  | item hw hc =>
    obtain rfl | hw := List.mem_cons.1 hw
    · exact .inl hc
    · exact .inr (.item hw hc)

theorem holds_object_cons {k : Text} {members : List (Text × Json)}
    (h : (Json.object ((k, v) :: members)).Holds c) :
    c ∈ k ∨ v.Holds c ∨ (Json.object members).Holds c := by
  cases h with
  | key hw hc =>
    obtain heq | hw := List.mem_cons.1 hw
    · exact .inl ((Prod.mk.inj heq).1 ▸ hc)
    · exact .inr (.inr (.key hw hc))
  | member hw hc =>
    obtain heq | hw := List.mem_cons.1 hw
    · exact .inr (.inl ((Prod.mk.inj heq).2 ▸ hc))
    · exact .inr (.inr (.member hw hc))

theorem holds_array_of_reverse {items : List Json} (h : (Json.array items.reverse).Holds c) :
    (Json.array items).Holds c := by
  cases h with
  | item hw hc => exact .item (List.mem_reverse.1 hw) hc

theorem holds_object_of_collapse {members : List (Text × Json)}
    (h : (Json.object (collapse members.reverse)).Holds c) : (Json.object members).Holds c := by
  cases h with
  | key hw hc => exact .key (List.mem_reverse.1 (mem_of_mem_collapse hw)) hc
  | member hw hc => exact .member (List.mem_reverse.1 (mem_of_mem_collapse hw)) hc

/-- A value was read from a text: what is left is a suffix of it, and the value holds a code point
only if what was read before does or the text supplies it. -/
structure Taken (c : CodePoint) (before : Json) (s : Text) (v : Json) (rest : Text) : Prop where
  suffix : rest <:+ s
  supplied : v.Holds c → before.Holds c ∨ Supplies c s

theorem Taken.trans {before earlier : Json} (h : Taken c before rest v t) (hs : rest <:+ s)
    (hb : before.Holds c → earlier.Holds c ∨ Supplies c s) : Taken c earlier s v t where
  suffix := h.suffix.trans hs
  supplied := by
    intro hv
    obtain hbefore | hrest := h.supplied hv
    · exact hb hbefore
    · exact .inr (hrest.of_suffix hs)

theorem taken_of_not_holds {before : Json} (hs : rest <:+ s) (hv : ¬ v.Holds c) :
    Taken c before s v rest :=
  ⟨hs, fun h => absurd h hv⟩

theorem not_holds_array_nil : ¬ (Json.array []).Holds c := by
  intro h
  cases h with
  | item hw hc => cases hw

theorem not_holds_object_nil : ¬ (Json.object []).Holds c := by
  intro h
  cases h with
  | key hw hc => cases hw
  | member hw hc => cases hw

theorem taken_string (hs : c.isSurrogate) (h : string s = .ok (t, rest)) :
    Taken c .null s (.text t) rest where
  suffix := stringFrom_suffix h
  supplied := by
    rintro ⟨hc⟩
    exact .inr ((supplies_of_stringFrom h hc hs).resolve_left List.not_mem_nil)

/-- A value that was taken adds nothing to an array that is not supplied. -/
theorem Taken.holds_array {items : List Json} (h : Taken c .null s v rest)
    (hc : (Json.array (v :: items)).Holds c) : (Json.array items).Holds c ∨ Supplies c s := by
  obtain hv | hitems := holds_array_cons hc
  · obtain hnull | hsupplied := h.supplied hv
    · cases hnull
    · exact .inr hsupplied
  · exact .inl hitems

/-- A key and a value that were taken add nothing to an object that is not supplied. -/
theorem Taken.holds_object {members : List (Text × Json)} {key left : Text}
    (hkey : Taken c .null s (.text key) left) (h : Taken c .null s v rest)
    (hc : (Json.object ((key, v) :: members)).Holds c) :
    (Json.object members).Holds c ∨ Supplies c s := by
  obtain hk | hv | hmembers := holds_object_cons hc
  · obtain hnull | hsupplied := hkey.supplied (.text hk)
    · cases hnull
    · exact .inr hsupplied
  · obtain hnull | hsupplied := h.supplied hv
    · cases hnull
    · exact .inr hsupplied
  · exact .inl hmembers

variable (c) in
/-- Values are taken from what is read with some fuel. -/
def ValuesTaken (fuel : Nat) : Prop :=
  ∀ {depth s v rest}, value fuel depth s = .ok (v, rest) → Taken c .null s v rest

variable (c) in
/-- The rest of an array is taken from what is read with some fuel. -/
def ItemsTaken (fuel : Nat) : Prop :=
  ∀ {depth read s v rest}, items fuel depth read s = .ok (v, rest) → Taken c (.array read) s v rest

variable (c) in
/-- The rest of an object is taken from what is read with some fuel. -/
def MembersTaken (fuel : Nat) : Prop :=
  ∀ {depth read s v rest}, members fuel depth read s = .ok (v, rest) →
    Taken c (.object read) s v rest

/-- A container that is opened is empty, or the rest of it is read by `next`. -/
theorem taken_opened {opened closing : CodePoint} {empty : Json}
    {next : Text → Except Fault (Json × Text)}
    (hempty : ¬ empty.Holds c)
    (hnext : ∀ {s v rest}, next s = .ok (v, rest) → Taken c empty s v rest)
    (h : (match skipSpace s with
      | [] => next []
      | d :: after => if d = closing then .ok (empty, after) else next (d :: after)) =
        .ok (v, rest)) :
    Taken c .null (opened :: s) v rest := by
  have hs : skipSpace s <:+ opened :: s := (skipSpace_suffix s).trans (List.suffix_cons _ _)
  split at h
  · exact (hnext h).trans List.nil_suffix fun hc => absurd hc hempty
  · next d after hafter =>
    rw [hafter] at hs
    split at h
    · obtain ⟨rfl, rfl⟩ := Prod.mk.inj (Except.ok.inj h)
      exact taken_of_not_holds ((List.suffix_cons _ _).trans hs) hempty
    · exact (hnext h).trans hs fun hc => absurd hc hempty

theorem ValuesTaken.succ (hs : c.isSurrogate) (hitems : ItemsTaken c fuel)
    (hmembers : MembersTaken c fuel) : ValuesTaken c (fuel + 1) := by
  intro depth s v rest h
  rw [value.eq_def] at h
  dsimp only at h
  split at h
  · cases h
  · next d after =>
    split at h
    · split at h
      · cases h
      · next t left hstring =>
        obtain ⟨rfl, rfl⟩ := Prod.mk.inj (Except.ok.inj h)
        exact (taken_string hs hstring).trans (List.suffix_cons _ _) .inl
    · split at h
      · split at h
        · cases h
        · exact taken_opened not_holds_object_nil hmembers h
      · split at h
        · split at h
          · cases h
          · exact taken_opened not_holds_array_nil hitems h
        · obtain ⟨hsuffix, hnot⟩ := scalar_suffix (c := c) h
          exact taken_of_not_holds hsuffix hnot

theorem ItemsTaken.succ (hvalues : ValuesTaken c fuel) (hitems : ItemsTaken c fuel) :
    ItemsTaken c (fuel + 1) := by
  intro depth read s v rest h
  rw [items.eq_def] at h
  dsimp only at h
  split at h
  · cases h
  · next w left hw =>
    have hvalue := hvalues hw
    split at h
    · cases h
    · next d after hafter =>
      have hleft : after <:+ s :=
        (List.suffix_cons d after).trans (hafter ▸ (skipSpace_suffix left).trans hvalue.suffix)
      split at h
      · obtain ⟨rfl, rfl⟩ := Prod.mk.inj (Except.ok.inj h)
        exact ⟨hleft, fun hc => hvalue.holds_array (holds_array_of_reverse hc)⟩
      · split at h
        · exact (hitems h).trans ((skipSpace_suffix after).trans hleft) hvalue.holds_array
        · cases h

theorem MembersTaken.succ (hs : c.isSurrogate) (hvalues : ValuesTaken c fuel)
    (hmembers : MembersTaken c fuel) : MembersTaken c (fuel + 1) := by
  intro depth read s v rest h
  rw [members.eq_def] at h
  dsimp only at h
  split at h
  · cases h
  · next q behind =>
    split at h
    · cases h
    · split at h
      · cases h
      · next key left hstring =>
        have hkey := (taken_string hs hstring).trans (List.suffix_cons q behind) .inl
        split at h
        · cases h
        · next d after hafter =>
          have hleft : after <:+ q :: behind :=
            (List.suffix_cons d after).trans (hafter ▸ (skipSpace_suffix left).trans hkey.suffix)
          split at h
          · cases h
          · split at h
            · cases h
            · next w left' hw =>
              have hvalue := (hvalues hw).trans ((skipSpace_suffix after).trans hleft) .inl
              split at h
              · cases h
              · next e more hmore =>
                have hleft' : more <:+ q :: behind :=
                  (List.suffix_cons e more).trans
                    (hmore ▸ (skipSpace_suffix left').trans hvalue.suffix)
                split at h
                · obtain ⟨rfl, rfl⟩ := Prod.mk.inj (Except.ok.inj h)
                  exact ⟨hleft', fun hc => hkey.holds_object hvalue (holds_object_of_collapse hc)⟩
                · split at h
                  · exact (hmembers h).trans ((skipSpace_suffix more).trans hleft')
                      (hkey.holds_object hvalue)
                  · cases h

/-- All that is read is taken from the text, by induction on the fuel of the three readers. -/
theorem taken_of_isSurrogate (hs : c.isSurrogate) (fuel : Nat) :
    ValuesTaken c fuel ∧ ItemsTaken c fuel ∧ MembersTaken c fuel := by
  induction fuel with
  | zero =>
    refine ⟨?_, ?_, ?_⟩
    · intro depth s v rest h
      rw [value.eq_def] at h
      cases h
    · intro depth read s v rest h
      rw [items.eq_def] at h
      cases h
    · intro depth read s v rest h
      rw [members.eq_def] at h
      cases h
  | succ fuel ih =>
    obtain ⟨hvalues, hitems, hmembers⟩ := ih
    exact ⟨ValuesTaken.succ hs hitems hmembers, ItemsTaken.succ hvalues hitems,
      MembersTaken.succ hs hvalues hmembers⟩

/-- A surrogate in a value stands in the text that was read, or an escape by number does. -/
theorem supplies_of_parse (h : parse s = .ok v) (hc : v.Holds c) (hs : c.isSurrogate) :
    Supplies c s := by
  unfold parse at h
  split at h
  · cases h
  · next w rest hw =>
    split at h
    · obtain rfl := Except.ok.inj h
      have htaken := (taken_of_isSurrogate hs _).1 hw
      obtain hnull | hsupplied := htaken.supplied hc
      · cases hnull
      · exact hsupplied.of_suffix (skipSpace_suffix s)
    · cases h

end Reading

end LogRelay.Json
