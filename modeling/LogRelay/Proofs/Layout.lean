import LogRelay.Layout
import LogRelay.Proofs.Escapes
import LogRelay.Proofs.Record
import LogRelay.Proofs.Text

/-!
# What the basic layout writes

No surrogate is written that a record does not hold (`Layout.holds_of_mem_basic`).  Nested values
are written in their shown form, which escapes surrogates, so that only a text member or a key can
bring one in.
-/

namespace LogRelay

variable {c : CodePoint}

/-! ## Shown values -/

theorem notMem_joinWith {sep : Text} {parts : List Text} (hsep : c ∉ sep) (h : ∀ p ∈ parts, c ∉ p) :
    c ∉ Text.joinWith sep parts := by
  intro hc
  obtain hc | ⟨p, hp, hc⟩ := Text.mem_joinWith hc
  · exact hsep hc
  · exact h p hp hc

theorem Double.notMem_layout (hs : c.isSurrogate) {ds : Text} (hds : c ∉ ds) (lead : Int) :
    c ∉ Double.layout ds lead := by
  have hzeros : ∀ n, c ∉ List.replicate n (CodePoint.ofChar '0') := fun n h =>
    Text.ne_ofChar hs '0' (List.eq_of_mem_replicate h)
  have htake : ∀ n, c ∉ ds.take n := fun n h => hds (List.mem_of_mem_take h)
  have hdrop : ∀ n, c ∉ ds.drop n := fun n h => hds (List.mem_of_mem_drop h)
  unfold Double.layout
  dsimp only
  split_ifs <;>
    simp only [List.mem_append, List.mem_cons, List.not_mem_nil,
      Text.notMem_ofString hs, Text.ofNat, Text.ne_ofChar hs, hds, hzeros, htake, hdrop, or_self,
      not_false_eq_true]

theorem Double.notMem_text (hs : c.isSurrogate) (d : Double) : c ∉ d.text := by
  have hmagnitude : ∀ m e, c ∉ magnitudeText m e := by
    intro m e
    unfold magnitudeText
    split
    · exact Text.notMem_ofString hs _
    · refine Double.notMem_layout hs (fun h => ?_) _
      have hdigits := (List.dropWhile_sublist _).mem (List.mem_reverse.1 h)
      exact Text.notMem_ofString hs _ (List.mem_reverse.1 hdigits)
  unfold Double.text
  split
  · split
    · rw [List.mem_cons, not_or]
      exact ⟨Text.ne_ofChar hs '-', hmagnitude _ _⟩
    · exact hmagnitude _ _
  · split <;> exact Text.notMem_ofString hs _
  · exact Text.notMem_ofString hs _

mutual

theorem Json.notMem_inspect (hs : c.isSurrogate) (v : Json) : c ∉ v.inspect := by
  cases v with
  | null => exact Text.notMem_ofString hs _
  | bool b =>
    rw [Json.inspect, shownBool]
    split <;> exact Text.notMem_ofString hs _
  | int n => exact Text.notMem_ofInt hs n
  | float d => exact Double.notMem_text hs d
  | text t => exact Text.notMem_quoted hs t
  | array items =>
    have hitems :=
      notMem_joinWith (Text.notMem_ofString hs ", ") (Json.notMem_inspectItems hs items)
    simp only [Json.inspect, List.mem_append, Text.notMem_ofString hs, hitems, or_self,
      not_false_eq_true]
  | object members =>
    have hmembers :=
      notMem_joinWith (Text.notMem_ofString hs ", ") (Json.notMem_inspectMembers hs members)
    simp only [Json.inspect, List.mem_append, Text.notMem_ofString hs, hmembers, or_self,
      not_false_eq_true]

theorem Json.notMem_inspectItems (hs : c.isSurrogate) (items : List Json) :
    ∀ p ∈ Json.inspectItems items, c ∉ p := by
  cases items with
  | nil => exact fun p hp => absurd hp List.not_mem_nil
  | cons v items =>
    intro p hp
    obtain rfl | hp := List.mem_cons.1 hp
    · exact Json.notMem_inspect hs v
    · exact Json.notMem_inspectItems hs items p hp

theorem Json.notMem_inspectMembers (hs : c.isSurrogate) (members : List (Text × Json)) :
    ∀ p ∈ Json.inspectMembers members, c ∉ p := by
  match members with
  | [] => exact fun p hp => absurd hp List.not_mem_nil
  | (k, v) :: members =>
    intro p hp
    obtain rfl | hp := List.mem_cons.1 hp
    · rw [List.mem_append, List.mem_append, not_or, not_or]
      exact ⟨⟨Text.notMem_quoted hs k, Text.notMem_ofString hs _⟩, Json.notMem_inspect hs v⟩
    · exact Json.notMem_inspectMembers hs members p hp

end

/-! ## Members -/

namespace Message

variable {m : Message} {key t : Text} {v : Json}

/-- A code point stands in a text or in a key of a record. -/
def Holds (m : Message) (c : CodePoint) : Prop := (Json.object m.members).Holds c

theorem holds_of_get? (h : m.get? key = some v) (hc : v.Holds c) : m.Holds c :=
  .member (mem_members_of_get? h) hc

theorem holds_of_mem_keys (h : key ∈ m.keys) (hc : c ∈ key) : m.Holds c := by
  obtain ⟨⟨k, v⟩, hm, rfl⟩ := List.mem_map.1 h
  exact .key hm hc

theorem holds_of_mem_text (h : c ∈ m.text key) : m.Holds c := by
  unfold text at h
  split at h
  · next t ht => exact holds_of_get? ht (.text h)
  · cases h

theorem holds_of_requireText (h : m.requireText key = .ok t) (hc : c ∈ t) : m.Holds c := by
  unfold requireText at h
  split at h
  · obtain rfl := Except.ok.inj h
    cases hc
  · obtain rfl := Except.ok.inj h
    cases hc
  · next t' ht =>
    obtain rfl := Except.ok.inj h
    exact holds_of_get? ht (.text hc)
  · cases h

end Message

/-! ## Inserts -/

namespace Insert

variable {m : Message} {key t : Text} {v : Json} {ts : List Text} (hs : c.isSurrogate)

include hs

theorem holds_of_mem_valueText (h : c ∈ valueText v) : v.Holds c := by
  unfold valueText at h
  split at h
  · cases h
  · split at h <;> exact absurd h (Text.notMem_ofString hs _)
  · next d =>
    unfold doubleText at h
    split at h
    · split at h
      · exact absurd h (Text.notMem_ofInt hs _)
      · exact absurd h (Double.notMem_text hs _)
    · exact absurd h (Double.notMem_text hs _)
  · unfold Json.display at h
    split at h
    · exact .text h
    -- in the shown form of any other value surrogates are escaped
    · exact absurd h (Json.notMem_inspect hs _)

theorem mem_entry {name : Text} (h : c ∈ entry name v) : c ∈ name ∨ v.Holds c := by
  simp only [entry, List.mem_append, Text.notMem_ofString hs, or_false] at h
  exact h.imp_right (holds_of_mem_valueText hs)

theorem holds_of_ofMember (hkey : key ∈ m.keys) (h : ofMember m key = .ok (some t))
    (hc : c ∈ t) : m.Holds c := by
  have hname : ∀ (prefixed : String) n, c ∈ (prefixed : Text) ++ key.drop n → m.Holds c := by
    intro prefixed n hn
    rw [List.mem_append] at hn
    exact Message.holds_of_mem_keys hkey
      (List.mem_of_mem_drop (hn.resolve_left (Text.notMem_ofString hs _)))
  unfold ofMember at h
  split at h
  · obtain rfl := Option.some.inj (Except.ok.inj h)
    obtain hc | hc := mem_entry hs hc
    · exact hname _ _ hc
    · cases hvalue : m.get? key with
      | none =>
        rw [hvalue] at hc
        cases hc
      | some v =>
        rw [hvalue] at hc
        exact Message.holds_of_get? hvalue hc
  · split at h
    · split at h
      · cases h
      · next n hn =>
        split at h
        · cases Except.ok.inj h
        · obtain rfl := Option.some.inj (Except.ok.inj h)
          obtain hc | hc := mem_entry hs hc
          · exact hname _ _ hc
          · cases n <;> cases hc
    · cases Except.ok.inj h

theorem holds_of_ofKeys {keys : List Text} (hkeys : ∀ key ∈ keys, key ∈ m.keys)
    (h : ofKeys m keys = .ok ts) (ht : t ∈ ts) (hc : c ∈ t) : m.Holds c := by
  fun_induction ofKeys m keys generalizing ts with
  | case1 =>
    obtain rfl := Except.ok.inj h
    cases ht
  | case3 key keys _ ih => exact ih (fun k hk => hkeys k (List.mem_cons_of_mem _ hk)) h ht
  | case5 key keys u hu us hus ih =>
    obtain rfl := Except.ok.inj h
    obtain rfl | ht := List.mem_cons.1 ht
    · exact holds_of_ofMember hs (hkeys key List.mem_cons_self) hu hc
    · exact ih (fun k hk => hkeys k (List.mem_cons_of_mem _ hk)) hus ht
  | _ => cases h

theorem holds_of_collect (h : collect m = .ok ts) (ht : t ∈ ts) (hc : c ∈ t) : m.Holds c := by
  unfold collect at h
  split at h
  · cases h
  · next unsorted hu =>
    obtain rfl := Except.ok.inj h
    exact holds_of_ofKeys hs (fun _ hk => hk) hu (List.mem_mergeSort.1 ht) hc

end Insert

/-! ## The basic layout -/

namespace Layout

variable {m : Message} {line t : Text}

/-- A code point stands in one of the texts of a trace record. -/
def TraceFields.Holds (f : TraceFields) (c : CodePoint) : Prop :=
  c ∈ f.threadId ∨ c ∈ f.moduleName ∨ c ∈ f.className ∨ c ∈ f.methodName ∨ c ∈ f.text

theorem TraceFields.holds_of_ofMessage {f : TraceFields} (h : TraceFields.ofMessage m = .ok f)
    (hc : f.Holds c) : m.Holds c := by
  unfold TraceFields.ofMessage at h
  repeat' split at h
  all_goals try cases h
  rcases hc with hc | hc | hc | hc | hc
  all_goals exact Message.holds_of_requireText (by assumption) hc

section Surrogates

variable (hs : c.isSurrogate)

include hs

theorem holds_of_mem_timestamp (h : c ∈ timestamp m) : m.Holds c := by
  obtain h | h := Text.mem_replaceFirst h
  · exact Message.holds_of_mem_text h
  · exact absurd h (Text.notMem_ofString hs _)

theorem holds_of_mem_default (h : c ∈ default m) : m.Holds c := by
  simp only [default, List.mem_append, Text.notMem_ofString hs, or_false] at h
  obtain h | h := h
  · exact holds_of_mem_timestamp hs h
  · exact Message.holds_of_mem_text h

theorem holds_of_mem_withInserts {inserts : List Text} (hinserts : ∀ t ∈ inserts, c ∈ t → m.Holds c)
    (h : c ∈ withInserts m inserts) : m.Holds c := by
  simp only [withInserts, List.mem_append, Text.notMem_ofString hs, or_false] at h
  rcases h with (h | h) | h
  · exact Message.holds_of_mem_text h
  · exact Message.holds_of_mem_text h
  · obtain h | ⟨t, ht, h⟩ := Text.mem_joinWith h
    · exact absurd h (Text.notMem_ofString hs _)
    · exact hinserts t ht h

theorem mem_of_mem_indented (h : c ∈ indented t) : c ∈ t := by
  obtain h | h := Text.mem_replaceAll h
  · exact Text.mem_of_mem_strip h
  · obtain h | h := List.mem_cons.1 h
    · exact absurd h (Text.ne_ofChar hs _)
    · exact absurd (List.eq_of_mem_replicate h) (Text.ne_ofChar hs _)

theorem holds_of_serverMessage (h : serverMessage m = .ok t) (hc : c ∈ t) : m.Holds c := by
  unfold serverMessage at h
  split at h
  · cases h
  · next u hu =>
    obtain rfl := Except.ok.inj h
    simp only [List.mem_append, Text.notMem_ofString hs, or_false] at hc
    obtain hc | hc := hc
    · exact holds_of_mem_timestamp hs hc
    · split at hc
      · exact Message.holds_of_requireText hu hc
      · exact Message.holds_of_requireText hu (mem_of_mem_indented hs hc)

theorem mem_of_mem_nameColumn (h : c ∈ nameColumn t) : c ∈ t := by
  obtain h | h := Text.mem_padRight h
  · have hlast := List.mem_of_mem_take h
    cases hl : (t.split '.').getLast? with
    | none =>
      rw [hl] at hlast
      cases hlast
    | some p =>
      rw [hl] at hlast
      exact mem_of_mem_pieces (List.mem_of_getLast? hl) hlast
  · exact absurd h (Text.ne_ofChar hs _)

theorem mem_of_mem_traceCode (h : c ∈ traceCode t) : c ∈ t := by
  unfold traceCode at h
  split at h
  · next level _ =>
    cases level <;> exact absurd (List.mem_singleton.1 h) (Text.ne_ofChar hs _)
  · exact List.mem_of_mem_take h

theorem TraceFields.holds_of_mem_line {f : TraceFields} {levelName : Text}
    (h : c ∈ f.line levelName) : f.Holds c ∨ c ∈ levelName := by
  have hmodule : c ∈ nameColumn f.moduleName → c ∈ f.moduleName := mem_of_mem_nameColumn hs
  have hclass : c ∈ nameColumn f.className → c ∈ f.className := mem_of_mem_nameColumn hs
  have hcode : c ∈ traceCode levelName → c ∈ levelName := mem_of_mem_traceCode hs
  unfold TraceFields.line at h
  unfold TraceFields.Holds
  dsimp only at h
  split at h <;> simp only [List.mem_append, Text.notMem_ofString hs, or_false] at h <;> grind

theorem holds_of_trace (h : trace m = .ok t) (hc : c ∈ t) : m.Holds c := by
  unfold trace at h
  split at h
  · cases h
  · next levelName hlevel =>
    split at h
    · obtain rfl := Except.ok.inj h
      exact holds_of_mem_default hs hc
    · split at h
      · cases h
      · next f hf =>
        obtain rfl := Except.ok.inj h
        simp only [List.mem_append, Text.notMem_ofString hs, or_false] at hc
        rcases hc with (hc | hc) | hc
        · exact holds_of_mem_timestamp hs hc
        · exact TraceFields.holds_of_ofMessage hf (.inl hc)
        · obtain hc | hc := TraceFields.holds_of_mem_line hs hc
          · exact TraceFields.holds_of_ofMessage hf hc
          · exact Message.holds_of_requireText hlevel hc

theorem holds_of_preferred (h : preferred m = .ok t) (hc : c ∈ t) : m.Holds c := by
  unfold preferred at h
  split at h
  · cases h
  · next i is hcollect =>
    obtain rfl := Except.ok.inj h
    exact holds_of_mem_withInserts hs (fun _ ht => Insert.holds_of_collect hs hcollect ht) hc
  · split_ifs at h
    · exact holds_of_serverMessage hs h hc
    · exact holds_of_trace hs h hc
    · obtain rfl := Except.ok.inj h
      exact holds_of_mem_default hs hc

/-- A surrogate that is written of a record in the basic layout stands in the record. -/
theorem holds_of_mem_basic (h : c ∈ (basic line (.record m)).text) : m.Holds c := by
  simp only [basic, Entry.message?] at h
  split at h
  · next t ht => exact holds_of_preferred hs ht h
  · exact holds_of_mem_default hs h

end Surrogates

end Layout

end LogRelay
