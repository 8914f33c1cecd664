import LogRelay.Follower.Basic
import LogRelay.Proofs.Text
import Mathlib.Tactic.Ring
import Mathlib.Data.List.Basic

/-!
# What is decoded

`Utf8.forall_mem_decode` is the one fact about decoding from which the others follow: a code point
of the decoded text is an octet below 0x80 that was there, or it is at least 0x80 and no surrogate.
Hence no decoded text holds a surrogate, and no line that was cut out of a file holds a line feed.

Of a sequence that is still open (`Utf8.Partial`) it is known between which bounds its code point
will be (`Partial.Sound`); each octet that continues it narrows them.
-/

namespace LogRelay

namespace Utf8

/-! ### Open sequences -/

namespace Partial

/-- The least number that an open sequence may come to. -/
def least (p : Partial) : Nat := (64 * p.value + (p.low.toNat - 0x80)) * 64 ^ (p.missing - 1)

/-- The first number behind those that an open sequence may come to. -/
def bound (p : Partial) : Nat := (64 * p.value + (p.high.toNat - 0x80) + 1) * 64 ^ (p.missing - 1)

/-- Whatever an open sequence comes to is a code point beyond ASCII and no surrogate. -/
structure Sound (p : Partial) : Prop where
  missing : 0 < p.missing
  least : 0x80 ≤ p.least
  bound : p.bound ≤ 0x110000
  plain : p.bound ≤ 0xD800 ∨ 0xE000 ≤ p.least

end Partial

/-- What a first octet opens, by the number of octets that follow.  The bounds on the second octet
keep overlong forms, surrogates and numbers that are too large away. -/
inductive Opens (b : UInt8) : Partial → Prop
  | two {v : Nat} {low high : UInt8} (hb : b.toNat = 0xC0 + v)
      (hnext : 0x80 ≤ low.toNat ∧ low.toNat ≤ high.toNat ∧ high.toNat ≤ 0xBF)
      (hleast : 0x80 ≤ 64 * v + (low.toNat - 0x80))
      (hbound : 64 * v + (high.toNat - 0x80) < 0x800) :
      Opens b ⟨v, 1, low, high, 1⟩
  | three {v : Nat} {low high : UInt8} (hb : b.toNat = 0xE0 + v)
      (hnext : 0x80 ≤ low.toNat ∧ low.toNat ≤ high.toNat ∧ high.toNat ≤ 0xBF)
      (hleast : 0x20 ≤ 64 * v + (low.toNat - 0x80)) (hbound : 64 * v + (high.toNat - 0x80) < 0x400)
      (hplain : 64 * v + (high.toNat - 0x80) < 0x360 ∨ 0x380 ≤ 64 * v + (low.toNat - 0x80)) :
      Opens b ⟨v, 2, low, high, 1⟩
  | four {v : Nat} {low high : UInt8} (hb : b.toNat = 0xF0 + v)
      (hnext : 0x80 ≤ low.toNat ∧ low.toNat ≤ high.toNat ∧ high.toNat ≤ 0xBF)
      (hleast : 0x10 ≤ 64 * v + (low.toNat - 0x80))
      (hbound : 64 * v + (high.toNat - 0x80) < 0x110) :
      Opens b ⟨v, 3, low, high, 1⟩

theorem opens_of_start {b : UInt8} {p : Partial} (h : start b = .opened p) : Opens b p := by
  have hlow : (0x80 : UInt8).toNat = 0x80 := rfl
  have hhigh : (0xBF : UInt8).toNat = 0xBF := rfl
  unfold start at h
  dsimp only at h
  repeat' split at h
  all_goals first | exact Start.noConfusion h | obtain rfl := Start.opened.inj h
  · exact .two (by omega) (by decide) (by omega) (by omega)
  · exact .three (by omega) (by decide) (by decide) (by decide) (by decide)
  · exact .three (by omega) (by decide) (by decide) (by decide) (by decide)
  · exact .three (by omega) (by decide) (by omega) (by omega) (by omega)
  · exact .four (by omega) (by decide) (by decide) (by decide)
  · exact .four (by omega) (by decide) (by omega) (by omega)
  · exact .four (by omega) (by decide) (by decide) (by decide)

theorem Opens.sound {b : UInt8} {p : Partial} (h : Opens b p) : p.Sound := by
  cases h with
  | two | three | four => constructor <;> dsimp only [Partial.least, Partial.bound] <;> omega

theorem eq_of_start {b : UInt8} {c : CodePoint} (h : start b = .complete c) :
    b.toNat < 0x80 ∧ c = CodePoint.ofNat b.toNat := by
  unfold start at h
  dsimp only at h
  split at h
  · next hlt => exact ⟨hlt, (Start.complete.inj h).symm⟩
  · repeat' split at h
    all_goals exact Start.noConfusion h

namespace Partial

variable {p : Partial} {b : UInt8} {v : Nat}

/-- The number an open sequence has come to with an octet that continues it. -/
def gain (p : Partial) (b : UInt8) : Nat := 64 * p.value + (b.toNat - 0x80)

/-- The open sequence after an octet that continues it. -/
def after (p : Partial) (b : UInt8) : Partial := ⟨p.gain b, p.missing - 1, 0x80, 0xBF, p.taken + 1⟩

theorem least_after (h : 1 < p.missing) : (p.after b).least = p.gain b * 64 ^ (p.missing - 1) := by
  obtain ⟨m, hm⟩ : ∃ m, p.missing = m + 2 := Nat.exists_eq_add_of_le' h
  simp only [least, after, hm, UInt8.reduceToNat, Nat.reduceSub, Nat.add_zero, Nat.add_one_sub_one]
  ring

theorem bound_after (h : 1 < p.missing) :
    (p.after b).bound = (p.gain b + 1) * 64 ^ (p.missing - 1) := by
  obtain ⟨m, hm⟩ : ∃ m, p.missing = m + 2 := Nat.exists_eq_add_of_le' h
  simp only [bound, after, hm, UInt8.reduceToNat, Nat.reduceSub, Nat.add_one_sub_one]
  ring

theorem least_le_gain (h : p.low ≤ b) : p.least ≤ p.gain b * 64 ^ (p.missing - 1) := by
  have hlow : p.low.toNat ≤ b.toNat := UInt8.le_iff_toNat_le.1 h
  refine Nat.mul_le_mul_right _ ?_
  unfold gain
  omega

theorem gain_lt_bound (h : b ≤ p.high) : (p.gain b + 1) * 64 ^ (p.missing - 1) ≤ p.bound := by
  have hhigh : b.toNat ≤ p.high.toNat := UInt8.le_iff_toNat_le.1 h
  refine Nat.mul_le_mul_right _ ?_
  unfold gain
  omega

/-- An octet that continues a sequence narrows its bounds. -/
theorem Sound.continue (h : p.Sound) (hl : p.low ≤ b) (hh : b ≤ p.high) (hm : 1 < p.missing) :
    (p.after b).Sound := by
  have hleast := least_le_gain hl
  have hbound := gain_lt_bound hh
  refine ⟨by simp only [after]; omega, ?_, ?_, ?_⟩
  · rw [least_after hm]
    exact h.least.trans hleast
  · rw [bound_after hm]
    exact hbound.trans h.bound
  · rw [least_after hm, bound_after hm]
    exact h.plain.imp hbound.trans fun h => h.trans hleast

end Partial

/-- The last octet of a sequence makes it a code point beyond ASCII and no surrogate. -/
theorem Partial.Sound.complete {p : Partial} (h : p.Sound) {b : UInt8} (hl : p.low ≤ b)
    (hh : b ≤ p.high) (hm : p.missing ≤ 1) :
    0x80 ≤ (CodePoint.ofNat (64 * p.value + (b.toNat - 0x80))).val ∧
      ¬ (CodePoint.ofNat (64 * p.value + (b.toNat - 0x80))).isSurrogate := by
  have hlow : p.low.toNat ≤ b.toNat := UInt8.le_iff_toNat_le.1 hl
  have hhigh : b.toNat ≤ p.high.toNat := UInt8.le_iff_toNat_le.1 hh
  have hone : p.missing = 1 := le_antisymm hm h.missing
  obtain ⟨-, hleast, hbound, hplain⟩ := h
  simp only [Partial.least, Partial.bound, hone, Nat.sub_self, Nat.pow_zero,
    Nat.mul_one] at hleast hbound hplain
  rw [CodePoint.isSurrogate_iff, CodePoint.val_ofNat (by omega)]
  omega

/-! ### The decoder -/

/-- All that was decoded has a property, and the open sequence is sound. -/
structure Decoder.Good (P : CodePoint → Prop) (d : Decoder) : Prop where
  decoded : ∀ c ∈ d.decoded, P c
  pending : ∀ p, d.pending = some p → p.Sound

section

variable {P : CodePoint → Prop} {d : Decoder} {b : UInt8}

theorem Decoder.good_begin {decoded : Text} (hd : ∀ c ∈ decoded, P c)
    (hwide : ∀ c : CodePoint, 0x80 ≤ c.val → ¬ c.isSurrogate → P c)
    (hnarrow : b.toNat < 0x80 → P (CodePoint.ofNat b.toNat)) :
    (Decoder.begin decoded b).Good P := by
  unfold Decoder.begin
  split
  · next c hc =>
    refine ⟨fun x hx => ?_, nofun⟩
    rcases List.mem_cons.1 hx with rfl | hx
    · obtain ⟨hlt, rfl⟩ := eq_of_start hc
      exact hnarrow hlt
    · exact hd x hx
  · next p hp => exact ⟨hd, fun q hq => Option.some.inj hq ▸ (opens_of_start hp).sound⟩
  · refine ⟨fun x hx => ?_, nofun⟩
    rcases List.mem_cons.1 hx with rfl | hx
    · exact hwide _ (by decide) (by decide)
    · exact hd x hx

theorem Decoder.Good.step (h : d.Good P)
    (hwide : ∀ c : CodePoint, 0x80 ≤ c.val → ¬ c.isSurrogate → P c)
    (hnarrow : b.toNat < 0x80 → P (CodePoint.ofNat b.toNat)) : (d.step b).Good P := by
  unfold Decoder.step
  split
  · exact good_begin h.decoded hwide hnarrow
  · next p hp =>
    have hsound := h.pending p hp
    split
    · next hin =>
      dsimp only
      split
      · next hm =>
        obtain ⟨hge, hplain⟩ := hsound.complete hin.1 hin.2 hm
        refine ⟨fun x hx => ?_, nofun⟩
        rcases List.mem_cons.1 hx with rfl | hx
        · exact hwide _ hge hplain
        · exact h.decoded x hx
      · next hm =>
        refine ⟨h.decoded, fun q hq => ?_⟩
        exact Option.some.inj hq ▸ hsound.continue hin.1 hin.2 (Nat.lt_of_not_le hm)
    · refine good_begin (fun x hx => ?_) hwide hnarrow
      rcases List.mem_cons.1 hx with rfl | hx
      · exact hwide _ (by decide) (by decide)
      · exact h.decoded x hx

/-- What is decoded are the octets below 0x80 and code points from there on that are no
surrogates. -/
theorem forall_mem_decode {bytes : Bytes}
    (hwide : ∀ c : CodePoint, 0x80 ≤ c.val → ¬ c.isSurrogate → P c)
    (hnarrow : ∀ b ∈ bytes, b.toNat < 0x80 → P (CodePoint.ofNat b.toNat)) :
    ∀ c ∈ decode bytes, P c := by
  have hgood (d : Decoder) (hd : d.Good P) : (bytes.foldl Decoder.step d).Good P := by
    induction bytes generalizing d with
    | nil => exact hd
    | cons b bytes ih =>
      exact ih (fun x hx => hnarrow x (List.mem_cons_of_mem b hx)) _
        (hd.step hwide (hnarrow b List.mem_cons_self))
  have hend := hgood ⟨[], none⟩ ⟨nofun, nofun⟩
  intro c hc
  unfold decode Decoder.finish at hc
  split at hc
  · exact hend.decoded c (List.mem_reverse.1 hc)
  · rcases List.mem_cons.1 (List.mem_reverse.1 hc) with rfl | hc
    · exact hwide _ (by decide) (by decide)
    · exact hend.decoded c hc

end

theorem isSurrogate_of_mem_decode {bytes : Bytes} {c : CodePoint} (h : c ∈ decode bytes) :
    ¬ c.isSurrogate := by
  refine forall_mem_decode (P := fun c => ¬ c.isSurrogate) (fun _ _ h => h) (fun b _ hb => ?_) c h
  rw [CodePoint.isSurrogate_iff, CodePoint.val_ofNat (by omega)]
  omega

theorem newline_notMem_decode {bytes : Bytes} (h : 10 ∉ bytes) :
    ('\n' : CodePoint) ∉ decode bytes := by
  intro hc
  refine forall_mem_decode (P := fun c => c ≠ '\n') (fun c hge _ => ?_)
    (fun b hb hlt => ?_) _ hc rfl
  · rintro rfl
    exact absurd hge (by decide)
  · intro he
    have hval : b.toNat = (10 : UInt8).toNat := by
      rw [← CodePoint.val_ofNat (n := b.toNat) (by omega), he]
      rfl
    exact h (UInt8.toNat_inj.1 hval ▸ hb)

/-! ### Surrogates -/

theorem firstSurrogates_isSome {text : Text} :
    (firstSurrogates text).isSome ↔ ∃ c ∈ text, c.isSurrogate := by
  have hany : (text.findIdx? CodePoint.isSurrogate).isSome ↔ ∃ c ∈ text, c.isSurrogate := by
    rw [List.findIdx?_isSome, List.any_eq_true]
  rw [← hany]
  unfold firstSurrogates
  split
  · next h => simp [h]
  · next h => simp [h]

end Utf8

/-! ### Lines -/

theorem lineText_subset (line : Bytes) : lineText line ⊆ Utf8.decode line := by
  unfold lineText
  dsimp only
  split
  · next c rest hr =>
    split
    · intro x hx
      rw [← List.mem_reverse, hr]
      exact List.mem_cons_of_mem c (List.mem_reverse.1 hx)
    · exact List.Subset.refl _
  · exact List.Subset.refl _

theorem isSurrogate_of_mem_lineText {line : Bytes} {c : CodePoint} (h : c ∈ lineText line) :
    ¬ c.isSurrogate := Utf8.isSurrogate_of_mem_decode (lineText_subset line h)

theorem newline_notMem_lineText {line : Bytes} (h : 10 ∉ line) :
    ('\n' : CodePoint) ∉ lineText line :=
  fun hc => Utf8.newline_notMem_decode h (lineText_subset line hc)

end LogRelay
