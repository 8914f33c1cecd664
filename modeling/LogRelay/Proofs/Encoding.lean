import LogRelay.Proofs.Utf8
import LogRelay.Text.System

/-!
# What can be encoded

The octets that can be decoded strictly are those that some text is encoded as, and decoding gives
that text back (`Utf8.decodeStrict_eq_ok_iff`).  Octets of the system can all be read as a text and
written back (`Text.systemOctets_ofSystemOctets`); so a text that has been read from the system is
settled.

Both rest on what an open sequence knows: `Partial.Of held p` says that the octets held begin the
encoding of every code point between the bounds of the sequence.
-/

namespace LogRelay

namespace Utf8

/-! ### The octets of a code point -/

/-- The last octets of the encoding of a number, six bits each. -/
def tails : Nat → Nat → Bytes
  | 0, _ => []
  | n + 1, v => (0x80 + v / 64 ^ n % 64).toUInt8 :: tails n v

/-- The octet that the encoding of a number begins with, where some more octets follow. -/
inductive Leads : (more v : Nat) → (b : UInt8) → Prop
  | two {v : Nat} {b : UInt8} (hv : 0x80 ≤ v ∧ v < 0x800)
      (hb : b.toNat = 0xC0 + v / 64) : Leads 1 v b
  | three {v : Nat} {b : UInt8} (hv : 0x800 ≤ v ∧ v < 0x10000)
      (hb : b.toNat = 0xE0 + v / 4096) : Leads 2 v b
  | four {v : Nat} {b : UInt8} (hv : 0x10000 ≤ v ∧ v < 0x110000)
      (hb : b.toNat = 0xF0 + v / 262144) : Leads 3 v b

variable {c : CodePoint} {b : UInt8} {more v : Nat} {p : Partial}
  {held bytes rest : Bytes} {t : Text}

theorem toUInt8_eq {n : Nat} (h : b.toNat = n) : n.toUInt8 = b := by
  rw [← h]
  exact UInt8.ofNat_toNat

theorem toNat_toUInt8 {n : Nat} (h : n < 256) : n.toUInt8.toNat = n := UInt8.toNat_ofNat_of_lt h

theorem Leads.encodePoint (h : Leads more c.val b) : encodePoint c = b :: tails more c.val := by
  unfold Utf8.encodePoint
  dsimp only
  cases h with
  | two hv hb =>
    rw [if_neg (by omega), if_pos hv.2, toUInt8_eq hb]
    simp [tails]
  | three hv hb =>
    rw [if_neg (by omega), if_neg (by omega), if_pos hv.2, toUInt8_eq hb]
    simp [tails]
  | four hv hb =>
    rw [if_neg (by omega), if_neg (by omega), if_neg (by omega), toUInt8_eq hb]
    simp [tails]

theorem exists_leads (h : 0x80 ≤ c.val) : ∃ more b, Leads more c.val b := by
  have hc : c.val < 0x110000 := c.isLt
  by_cases htwo : c.val < 0x800
  · exact ⟨1, _, .two ⟨h, htwo⟩ (toNat_toUInt8 (by omega))⟩
  · by_cases hthree : c.val < 0x10000
    · exact ⟨2, _, .three ⟨by omega, hthree⟩ (toNat_toUInt8 (by omega))⟩
    · exact ⟨3, _, .four ⟨by omega, hc⟩ (toNat_toUInt8 (by omega))⟩

theorem Leads.wide (h : Leads more v b) : 0x80 ≤ b.toNat := by
  cases h with
  | two hv hb => omega
  | three hv hb => omega
  | four hv hb => omega

theorem wide_of_mem_tails {n : Nat} (h : b ∈ tails n v) : 0x80 ≤ b.toNat := by
  induction n with
  | zero => cases h
  | succ n ih =>
    obtain rfl | h := List.mem_cons.1 h
    · rw [toNat_toUInt8 (by omega)]
      exact Nat.le_add_right _ _
    · exact ih h

/-- An octet below 0x80 is encoded by itself and stands in no other encoding. -/
theorem encodePoint_of_mem (h : b ∈ encodePoint c) (hb : b.toNat < 0x80) :
    c.val = b.toNat ∧ encodePoint c = [b] := by
  by_cases hc : c.val < 0x80
  · rw [encodePoint, if_pos hc] at h ⊢
    obtain rfl := List.mem_singleton.1 h
    exact ⟨(toNat_toUInt8 (by omega)).symm, rfl⟩
  · obtain ⟨more, lead, hlead⟩ := exists_leads (Nat.le_of_not_lt hc)
    have hwide : 0x80 ≤ b.toNat := by
      rw [hlead.encodePoint] at h
      obtain rfl | htail := List.mem_cons.1 h
      · exact hlead.wide
      · exact wide_of_mem_tails htail
    omega

theorem Opens.leads (h : Opens b p) (hleast : p.least ≤ v) (hbound : v < p.bound) :
    Leads p.missing v b := by
  cases h with
  | two | three | four =>
    dsimp only [Partial.least, Partial.bound] at hleast hbound
    constructor <;> omega

theorem start_of_leads (h : Leads more c.val b) (hc : ¬ c.isSurrogate) :
    ∃ p, start b = .opened p ∧ p.missing = more ∧ p.least ≤ c.val ∧ c.val < p.bound := by
  rw [CodePoint.isSurrogate_iff] at hc
  unfold start
  dsimp only
  cases h with
  | two hv hb =>
    rw [if_neg (by omega), if_neg (by omega), if_pos (by omega)]
    refine ⟨_, rfl, rfl, ?_, ?_⟩
    all_goals simp only [Partial.least, Partial.bound, UInt8.reduceToNat]; omega
  | three hv hb =>
    rw [if_neg (by omega), if_neg (by omega), if_neg (by omega)]
    repeat' split
    all_goals first | omega | refine ⟨_, rfl, rfl, ?_, ?_⟩
    all_goals simp only [Partial.least, Partial.bound, UInt8.reduceToNat]; omega
  | four hv hb =>
    rw [if_neg (by omega), if_neg (by omega), if_neg (by omega), if_neg (by omega),
      if_neg (by omega), if_neg (by omega)]
    repeat' split
    all_goals first | omega | refine ⟨_, rfl, rfl, ?_, ?_⟩
    all_goals simp only [Partial.least, Partial.bound, UInt8.reduceToNat]; omega

/-! ### Open sequences -/

/-- What is known of an open sequence with some octets, which are held in reverse. -/
structure Partial.Of (held : Bytes) (p : Partial) : Prop where
  sound : p.Sound
  begun : held ≠ []
  taken : p.taken = held.length
  low : 0x80 ≤ p.low.toNat
  ordered : p.low.toNat ≤ p.high.toNat
  high : p.high.toNat ≤ 0xBF
  wide : ∀ b ∈ held, 0x80 ≤ b.toNat
  encodes {c : CodePoint} (hleast : p.least ≤ c.val) (hbound : c.val < p.bound) :
    encodePoint c = held.reverse ++ tails p.missing c.val

theorem Opens.next (h : Opens b p) :
    0x80 ≤ p.low.toNat ∧ p.low.toNat ≤ p.high.toNat ∧ p.high.toNat ≤ 0xBF := by
  cases h with
  | two _ hnext | three _ hnext | four _ hnext => exact hnext

theorem Opens.of (h : Opens b p) : p.Of [b] where
  sound := h.sound
  begun := List.cons_ne_nil _ _
  taken := by cases h <;> rfl
  low := h.next.1
  ordered := h.next.2.1
  high := h.next.2.2
  wide o ho := by
    obtain rfl := List.mem_singleton.1 ho
    cases h with
    | two hb | three hb | four hb => omega
  encodes hleast hbound := (h.leads hleast hbound).encodePoint

namespace Partial

theorem tails_of_gain (hlow : 0x80 ≤ b.toNat) (hhigh : b.toNat ≤ 0xBF) (hmissing : 0 < p.missing)
    (h : v / 64 ^ (p.missing - 1) = p.gain b) :
    tails p.missing v = b :: tails (p.missing - 1) v := by
  obtain ⟨m, hm⟩ : ∃ m, p.missing = m + 1 := Nat.exists_eq_add_of_le' hmissing
  rw [hm, Nat.add_sub_cancel] at h
  have hdigit : b.toNat = 0x80 + v / 64 ^ m % 64 := by
    rw [h]
    unfold gain
    omega
  rw [hm, tails, toUInt8_eq hdigit, Nat.add_sub_cancel]

/-- A number between the bounds of a sequence has a next octet. -/
theorem Of.exists_gain (h : p.Of held) (hleast : p.least ≤ v) (hbound : v < p.bound) :
    ∃ b, (p.low ≤ b ∧ b ≤ p.high) ∧ v / 64 ^ (p.missing - 1) = p.gain b := by
  have hq : 0 < 64 ^ (p.missing - 1) := Nat.pow_pos (by omega)
  have hlow := h.low
  have hordered := h.ordered
  have hhigh := h.high
  have hge := (Nat.le_div_iff_mul_le hq).2 hleast
  have hlt := (Nat.div_lt_iff_lt_mul hq).2 hbound
  generalize v / 64 ^ (p.missing - 1) = w at hge hlt ⊢
  obtain ⟨b, hb⟩ : ∃ b : UInt8, b.toNat = 0x80 + (w - 64 * p.value) := by
    exact ⟨_, toNat_toUInt8 (by omega)⟩
  refine ⟨b, ⟨UInt8.le_iff_toNat_le.2 ?_, UInt8.le_iff_toNat_le.2 ?_⟩, ?_⟩
  · omega
  · omega
  · unfold gain
    omega

theorem Of.octet (h : p.Of held) (hin : p.low ≤ b ∧ b ≤ p.high) : 0x80 ≤ b.toNat ∧ b.toNat ≤ 0xBF :=
  ⟨h.low.trans (UInt8.le_iff_toNat_le.1 hin.1), (UInt8.le_iff_toNat_le.1 hin.2).trans h.high⟩

/-- What is known of a sequence after an octet that continues it. -/
theorem Of.after (h : p.Of held) (hin : p.low ≤ b ∧ b ≤ p.high) (hm : 1 < p.missing) :
    (p.after b).Of (b :: held) := by
  obtain ⟨hlow, hhigh⟩ := h.octet hin
  refine ⟨h.sound.continue hin.1 hin.2 hm, List.cons_ne_nil _ _, ?_, Nat.le_refl _,
    by simp [Partial.after], Nat.le_refl _, ?_, ?_⟩
  · rw [List.length_cons, ← h.taken]
    rfl
  · intro o ho
    obtain rfl | ho := List.mem_cons.1 ho
    · exact hlow
    · exact h.wide o ho
  · intro c hleast hbound
    rw [least_after hm] at hleast
    rw [bound_after hm] at hbound
    have hgain : c.val / 64 ^ (p.missing - 1) = p.gain b := Nat.div_eq_of_lt_le hleast hbound
    rw [h.encodes ((least_le_gain hin.1).trans hleast)
      (Nat.lt_of_lt_of_le hbound (gain_lt_bound hin.2)),
      tails_of_gain hlow hhigh (by omega) hgain, List.reverse_cons, List.append_assoc]
    rfl

/-- The octets of a sequence encode the code point it comes to. -/
theorem Of.complete (h : p.Of held) (hin : p.low ≤ b ∧ b ≤ p.high) (hm : p.missing ≤ 1) :
    encodePoint (CodePoint.ofNat (p.gain b)) = held.reverse ++ [b] ∧
    ¬ (CodePoint.ofNat (p.gain b)).isSurrogate := by
  obtain ⟨hlow, hhigh⟩ := h.octet hin
  have hone : p.missing = 1 := le_antisymm hm h.sound.missing
  have hleast := least_le_gain hin.1
  have hbound := gain_lt_bound hin.2
  have htop := h.sound.bound
  simp only [hone, Nat.sub_self, Nat.pow_zero, Nat.mul_one] at hleast hbound
  have hval : (CodePoint.ofNat (p.gain b)).val = p.gain b := CodePoint.val_ofNat (by omega)
  refine ⟨?_, (h.sound.complete hin.1 hin.2 hm).2⟩
  rw [h.encodes (by omega) (by omega),
    tails_of_gain hlow hhigh (by omega) (by simp [hone, hval]), hone]
  rfl

end Partial

/-! ### Sequences -/

/-- Octets that are read, after an open sequence if there is one, as one code point. -/
inductive Reads : Option Partial → Bytes → CodePoint → Prop
  | single {b : UInt8} {c : CodePoint} (h : start b = .complete c) : Reads none [b] c
  | first {b : UInt8} {p : Partial} {bytes : Bytes} {c : CodePoint} (h : start b = .opened p)
      (hrest : Reads (some p) bytes c) : Reads none (b :: bytes) c
  | next {p : Partial} {b : UInt8} {bytes : Bytes} {c : CodePoint} (hin : p.low ≤ b ∧ b ≤ p.high)
      (hm : 1 < p.missing) (hrest : Reads (some (p.after b)) bytes c) :
      Reads (some p) (b :: bytes) c
  | last {p : Partial} {b : UInt8} (hin : p.low ≤ b ∧ b ≤ p.high) (hm : p.missing ≤ 1) :
      Reads (some p) [b] (CodePoint.ofNat (p.gain b))

theorem Partial.Of.reads_tails (h : p.Of held) (hleast : p.least ≤ c.val)
    (hbound : c.val < p.bound) : Reads (some p) (tails p.missing c.val) c := by
  obtain ⟨m, hm⟩ : ∃ m, p.missing = m + 1 := Nat.exists_eq_add_of_le' h.sound.missing
  induction m generalizing p held with
  | zero =>
    obtain ⟨b, hin, hgain⟩ := h.exists_gain hleast hbound
    obtain ⟨hlow, hhigh⟩ := h.octet hin
    have hc : CodePoint.ofNat (p.gain b) = c := by
      rw [← hgain, hm, Nat.add_sub_cancel, Nat.pow_zero, Nat.div_one]
      exact Fin.ofNat_val_eq_self c
    rw [tails_of_gain hlow hhigh (by omega) hgain, hm]
    exact hc ▸ .last hin (by omega)
  | succ m ih =>
    obtain ⟨b, hin, hgain⟩ := h.exists_gain hleast hbound
    obtain ⟨hlow, hhigh⟩ := h.octet hin
    have hq : 0 < 64 ^ (p.missing - 1) := Nat.pow_pos (by omega)
    have hmore : 1 < p.missing := by omega
    rw [tails_of_gain hlow hhigh (by omega) hgain]
    refine .next hin hmore (ih (h.after hin hmore) ?_ ?_ ?_)
    · rw [least_after hmore, ← hgain]
      exact Nat.div_mul_le_self _ _
    · rw [bound_after hmore, ← hgain]
      exact Nat.lt_mul_of_div_lt (Nat.lt_succ_self _) hq
    · simp [Partial.after, hm]

/-- Every code point that is no surrogate is read off its octets. -/
theorem reads_encodePoint (h : ¬ c.isSurrogate) : Reads none (encodePoint c) c := by
  by_cases hc : c.val < 0x80
  · have hoctet : c.val.toUInt8.toNat = c.val := toNat_toUInt8 (by omega)
    have hstart : start c.val.toUInt8 = .complete c := by
      unfold start
      dsimp only
      rw [hoctet, if_pos hc]
      exact congrArg Start.complete (Fin.ofNat_val_eq_self c)
    rw [encodePoint, if_pos hc]
    exact .single hstart
  · obtain ⟨more, b, hlead⟩ := exists_leads (Nat.le_of_not_lt hc)
    obtain ⟨p, hstart, rfl, hleast, hbound⟩ := start_of_leads hlead h
    rw [hlead.encodePoint]
    exact .first hstart ((opens_of_start hstart).of.reads_tails hleast hbound)

/-- The octets held belong to the sequence that is open, if there is one. -/
def Held (held : Bytes) : Option Partial → Prop
  | none => held = []
  | some p => p.Of held

theorem held_none : Held [] none := rfl

theorem encodePoint_of_start (h : start b = .complete c) :
    encodePoint c = [b] ∧ ¬ c.isSurrogate := by
  obtain ⟨hlt, rfl⟩ := eq_of_start h
  have hval : (CodePoint.ofNat b.toNat).val = b.toNat := CodePoint.val_ofNat (by omega)
  rw [encodePoint, CodePoint.isSurrogate_iff, hval, if_pos hlt]
  exact ⟨congrArg (fun o => [o]) (toUInt8_eq rfl), by omega⟩

/-! ### Texts -/

theorem encode_eq_ok_iff :
    encode t = .ok bytes ↔ (∀ c ∈ t, ¬ c.isSurrogate) ∧ t.flatMap encodePoint = bytes := by
  have hsome := @firstSurrogates_isSome t
  unfold encode
  cases hfirst : firstSurrogates t with
  | none =>
    rw [hfirst] at hsome
    simp_all
  | some e =>
    rw [hfirst] at hsome
    simp_all

variable {pending : Option Partial} {decoded : Text} {position : Nat} {first : UInt8}

theorem decodePartFrom_of_reads (h : Reads pending bytes c) :
    decodePartFrom position first decoded pending (bytes ++ rest) =
      decodePartFrom (position + bytes.length) 0 (c :: decoded) none rest := by
  induction h generalizing position first with
  | single h =>
    rw [List.singleton_append, decodePartFrom.eq_def]
    dsimp only
    rw [h]
    rfl
  | first h _ ih =>
    rw [List.cons_append, decodePartFrom.eq_def]
    dsimp only
    rw [h, List.length_cons, Nat.add_comm (List.length _) 1, ← Nat.add_assoc]
    exact ih
  | next hin hm _ ih =>
    rw [List.cons_append, decodePartFrom.eq_def]
    dsimp only
    rw [if_pos hin, if_neg (by omega), List.length_cons,
      Nat.add_comm (List.length _) 1, ← Nat.add_assoc]
    exact ih
  | last hin hm =>
    rw [List.singleton_append, decodePartFrom.eq_def]
    dsimp only
    rw [if_pos hin, if_pos hm]
    rfl

theorem decodePartFrom_encode (h : ∀ c ∈ t, ¬ c.isSurrogate) :
    decodePartFrom position first decoded none (t.flatMap encodePoint) =
      .ok (decoded.reverse ++ t, 0) := by
  induction t generalizing position first decoded with
  | nil => simp [decodePartFrom]
  | cons c t ih =>
    rw [List.flatMap_cons, decodePartFrom_of_reads (reads_encodePoint (h c List.mem_cons_self)),
      ih fun d hd => h d (List.mem_cons_of_mem c hd)]
    simp

/-- What is decoded without a remainder encodes the octets, by induction on those that are still to
come. -/
theorem encode_of_decodePartFrom (hheld : Held held pending)
    (h : decodePartFrom position first decoded pending bytes = .ok (t, 0)) :
    ∃ u, t = decoded.reverse ++ u ∧ (∀ c ∈ u, ¬ c.isSurrogate) ∧
    u.flatMap encodePoint = held.reverse ++ bytes := by
  induction bytes generalizing position first decoded pending held with
  | nil =>
    rw [decodePartFrom] at h
    obtain ⟨rfl, hcount⟩ := Prod.mk.inj (Except.ok.inj h)
    cases pending with
    | none =>
      obtain rfl : held = [] := hheld
      exact ⟨[], by simp, nofun, rfl⟩
    | some p =>
      have hheld : p.Of held := hheld
      exact absurd (List.eq_nil_of_length_eq_zero (hheld.taken ▸ hcount)) hheld.begun
  | cons b bytes ih =>
    rw [decodePartFrom.eq_def] at h
    dsimp only at h
    split at h
    · obtain rfl : held = [] := hheld
      split at h
      · next c hstart =>
        obtain ⟨hoctets, hclean⟩ := encodePoint_of_start hstart
        obtain ⟨u, hu, hrest, hbytes⟩ := ih held_none h
        refine ⟨c :: u, by simp [hu], ?_, ?_⟩
        · exact List.forall_mem_cons.2 ⟨hclean, hrest⟩
        · rw [List.flatMap_cons, hoctets, hbytes]
          rfl
      · next p hstart =>
        have hbegun : Held [b] (some p) := (opens_of_start hstart).of
        exact ih hbegun h
      · cases h
    · next p =>
      have hheld : p.Of held := hheld
      split at h
      · next hin =>
        split at h
        · next hm =>
          obtain ⟨hoctets, hclean⟩ := hheld.complete hin hm
          obtain ⟨u, hu, hrest, hbytes⟩ := ih held_none h
          refine ⟨CodePoint.ofNat (p.gain b) :: u, ?_, ?_, ?_⟩
          · rw [hu, List.reverse_cons, List.append_assoc]
            rfl
          · exact List.forall_mem_cons.2 ⟨hclean, hrest⟩
          · rw [List.flatMap_cons, hoctets, hbytes]
            simp
        · next hm =>
          have hafter : Held (b :: held) (some (p.after b)) := hheld.after hin (by omega)
          simpa using ih hafter h
      · cases h

/-- Octets can be decoded exactly if a text is encoded as them. -/
theorem decodeStrict_eq_ok_iff : decodeStrict bytes = .ok t ↔ encode t = .ok bytes := by
  rw [encode_eq_ok_iff]
  unfold decodeStrict decodePart
  constructor
  · intro h
    split at h
    · cases h
    · next u hpart =>
      obtain rfl := Except.ok.inj h
      obtain ⟨w, hw, hclean, hoctets⟩ := encode_of_decodePartFrom held_none hpart
      obtain rfl : u = w := hw
      exact ⟨hclean, hoctets⟩
    · cases h
  · rintro ⟨hclean, rfl⟩
    rw [decodePartFrom_encode hclean]
    rfl

end Utf8

namespace Text

open Utf8

variable {c : CodePoint} {b : UInt8} {t read : Text} {bytes held rest : Bytes}
  {pending : Option Partial}

/-! ### Octets of the system -/

theorem val_octetPoint (b : UInt8) : (octetPoint b).val = 0xDC00 + b.toNat :=
  CodePoint.val_ofNat (by have := b.toNat_lt; omega)

theorem isOctet_octetPoint (h : 0x80 ≤ b.toNat) : isOctet (octetPoint b) := by
  have hb : b.toNat < 256 := b.toNat_lt
  simp only [isOctet, val_octetPoint, Bool.and_eq_true, decide_eq_true_eq]
  omega

theorem not_isOctet_of_clean (h : ¬ c.isSurrogate) : ¬ isOctet c := by
  rw [CodePoint.isSurrogate_iff] at h
  simp only [isOctet, Bool.and_eq_true, decide_eq_true_eq]
  omega

/-- A code point that stands for an octet, or for a character. -/
def Storable (c : CodePoint) : Prop := isOctet c ∨ ¬ c.isSurrogate

/-- Handed to the system, the text is those octets. -/
structure Stands (t : Text) (bytes : Bytes) : Prop where
  octets : systemOctets t = bytes
  storable : ∀ c ∈ t, Storable c

theorem stands_nil : Stands [] [] := ⟨rfl, nofun⟩

theorem Stands.append {s : Text} (hs : Stands s bytes) (ht : Stands t rest) :
    Stands (s ++ t) (bytes ++ rest) := by
  constructor
  · rw [← hs.octets, ← ht.octets]
    exact List.flatMap_append
  · exact List.forall_mem_append.2 ⟨hs.storable, ht.storable⟩

theorem stands_encodePoint (h : ¬ c.isSurrogate) : Stands [c] (encodePoint c) := by
  constructor
  · rw [systemOctets, List.flatMap_singleton, if_neg (not_isOctet_of_clean h)]
  · rintro d hd
    obtain rfl := List.mem_singleton.1 hd
    exact .inr h

theorem stands_octetPoint (h : 0x80 ≤ b.toNat) : Stands [octetPoint b] [b] := by
  have hb : (octetPoint b).val - 0xDC00 = b.toNat := by rw [val_octetPoint]; omega
  constructor
  · rw [systemOctets, List.flatMap_singleton, if_pos (isOctet_octetPoint h), hb, toUInt8_eq rfl]
  · intro d hd
    obtain rfl := List.mem_singleton.1 hd
    exact .inl (isOctet_octetPoint h)

theorem stands_octetPoints (h : ∀ b ∈ bytes, 0x80 ≤ b.toNat) :
    Stands (bytes.map octetPoint) bytes := by
  induction bytes with
  | nil => exact stands_nil
  | cons b bytes ih =>
    obtain ⟨hb, hrest⟩ := List.forall_mem_cons.1 h
    exact (stands_octetPoint hb).append (ih hrest)

theorem wide_of_start (h : start b = .invalid) : 0x80 ≤ b.toNat := by
  unfold start at h
  dsimp only at h
  split at h
  · cases h
  · omega

theorem wide_of_held {p : Partial} (h : Held held (some p)) : ∀ b ∈ held.reverse, 0x80 ≤ b.toNat :=
  fun b hb => Partial.Of.wide h b (List.mem_reverse.1 hb)

/-- What is read of octets stands for them, by induction on those that are still to come. -/
theorem ofOctetsFrom_spec (hheld : Held held pending) (read : Text) (bytes : Bytes) :
    ∃ u, ofOctetsFrom pending held read bytes = read.reverse ++ u ∧
    Stands u (held.reverse ++ bytes) := by
  induction bytes generalizing held pending read with
  | nil =>
    have hwide : ∀ b ∈ held.reverse, 0x80 ≤ b.toNat := by
      cases pending with
      | none =>
        obtain rfl : held = [] := hheld
        exact nofun
      | some p => exact wide_of_held hheld
    exact ⟨held.reverse.map octetPoint, by simp [ofOctetsFrom],
      by simpa using stands_octetPoints hwide⟩
  | cons b bytes ih =>
    have hbegin (read : Text) : ∃ u, ofOctetsFrom none [] read (b :: bytes) = read.reverse ++ u ∧
        Stands u (b :: bytes) := by
      rw [ofOctetsFrom.eq_def]
      dsimp only
      split
      · next c hstart =>
        obtain ⟨hoctets, hclean⟩ := encodePoint_of_start hstart
        obtain ⟨u, hu, hstands⟩ := ih held_none (c :: read)
        have hfirst : Stands [c] [b] := hoctets ▸ stands_encodePoint hclean
        exact ⟨c :: u, by simp [hu], hfirst.append hstands⟩
      · next p hstart =>
        have hbegun : Held [b] (some p) := (opens_of_start hstart).of
        exact ih hbegun read
      · next hstart =>
        obtain ⟨u, hu, hstands⟩ := ih held_none (octetPoint b :: read)
        exact ⟨octetPoint b :: u, by simp [hu],
          (stands_octetPoint (wide_of_start hstart)).append hstands⟩
    cases pending with
    | none =>
      obtain rfl : held = [] := hheld
      exact hbegin read
    | some p =>
      have hof : p.Of held := hheld
      rw [ofOctetsFrom.eq_def]
      dsimp only
      split
      · next hin =>
        split
        · next hm =>
          obtain ⟨hoctets, hclean⟩ := hof.complete hin hm
          obtain ⟨u, hu, hstands⟩ := ih held_none (CodePoint.ofNat (p.gain b) :: read)
          refine ⟨CodePoint.ofNat (p.gain b) :: u, ?_, ?_⟩
          · rw [List.append_cons, ← List.reverse_cons, ← hu]
            rfl
          · have hsequence : Stands [CodePoint.ofNat (p.gain b)] (held.reverse ++ [b]) :=
              hoctets ▸ stands_encodePoint hclean
            simpa using hsequence.append hstands
        · next hm =>
          have hafter : Held (b :: held) (some (p.after b)) := hof.after hin (by omega)
          obtain ⟨u, hu, hstands⟩ := ih hafter read
          exact ⟨u, hu, by simpa using hstands⟩
      · obtain ⟨u, hu, hstands⟩ := hbegin (held.map octetPoint ++ read)
        refine ⟨held.reverse.map octetPoint ++ u, ?_,
          (stands_octetPoints (wide_of_held hheld)).append hstands⟩
        rw [List.reverse_append, ← List.map_reverse, List.append_assoc] at hu
        rw [← hu]
        exact (ofOctetsFrom.eq_def none [] _ (b :: bytes)).symm

theorem stands_ofSystemOctets (bytes : Bytes) : Stands (ofSystemOctets bytes) bytes := by
  obtain ⟨u, hu, hstands⟩ := ofOctetsFrom_spec held_none [] bytes
  rw [ofSystemOctets, hu]
  exact hstands

theorem systemOctets_ofSystemOctets (bytes : Bytes) : systemOctets (ofSystemOctets bytes) = bytes :=
  (stands_ofSystemOctets bytes).octets

/-- A text that has been read from the system is what it becomes there. -/
theorem settled_ofSystemOctets (bytes : Bytes) :
    settled (ofSystemOctets bytes) = ofSystemOctets bytes := by
  unfold settled
  split
  · rw [systemOctets_ofSystemOctets]
  · rfl

end Text

end LogRelay
