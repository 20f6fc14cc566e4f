import DominionSilver.Library.Sliding
import DominionSilver.Sanity.Quotes

/-! The redemption window is a sliding counter. Saturating arithmetic on times changes neither the
bucket that a time falls in nor the share of the previous one, and only the count itself is capped
at the largest word. -/

namespace DominionSilver

open Checked Sliding

/-- The counter that a config stores. -/
def ConfigAccount.counter (c : ConfigAccount) : Counter :=
  ⟨c.instantWindowStart, c.instantUsedUsdc.toNat, c.instantUsedPrevUsdc.toNat⟩

/-- The length of the window. -/
abbrev ConfigAccount.window (c : ConfigAccount) : ℤ := c.instantRedeemWindowSeconds.toNat

section Chain

variable {now start w : ℤ} {used prev : UInt64}

/-- Saturating the difference of two times never changes which bucket a time falls in. -/
theorem le_saturatingI64 {k z : ℤ} (hk : -2 ^ 63 < k ∧ k < 2 ^ 63) : k ≤ saturatingI64 z ↔ k ≤ z := by
  unfold saturatingI64; omega

theorem into_saturating (hw : 0 ≤ w ∧ w < 2 ^ 63) (s : ℤ) :
    max 0 (min w (saturatingI64 (now - s))) = into w s now := by
  unfold into saturatingI64; omega

theorem rollBuckets_eq (hw : 0 < w ∧ 2 * w < 2 ^ 63) :
    (rollBuckets now start w used prev).1 =
        (Counter.roll w ⟨start, used.toNat, prev.toNat⟩ now).start ∧
      (rollBuckets now start w used prev).2.1.toNat =
        (Counter.roll w ⟨start, used.toNat, prev.toNat⟩ now).current ∧
      (rollBuckets now start w used prev).2.2.toNat =
        (Counter.roll w ⟨start, used.toNat, prev.toNat⟩ now).prev := by
  have htwo : 2 * w ≤ max (saturatingI64 (now - start)) 0 ↔ 2 * w ≤ now - start := by
    rw [le_max_iff, le_saturatingI64 (by omega)]; omega
  have hone : w ≤ max (saturatingI64 (now - start)) 0 ↔ w ≤ now - start := by
    rw [le_max_iff, le_saturatingI64 (by omega)]; omega
  simp only [rollBuckets, Counter.roll, htwo, hone]
  split_ifs <;> exact ⟨rfl, rfl, rfl⟩

theorem rollWindow_rolled {windowSeconds : UInt32} (hw : 0 < windowSeconds.toNat) :
    (⟨(rollWindow now start windowSeconds used prev).newWindowStart,
        (rollWindow now start windowSeconds used prev).rolledCurrent.toNat,
        (rollWindow now start windowSeconds used prev).rolledPrev.toNat⟩ : Counter) =
      Counter.roll windowSeconds.toNat ⟨start, used.toNat, prev.toNat⟩ now := by
  have hlt := windowSeconds.toNat_lt
  have hpos : ¬ (windowSeconds.toNat : ℤ) ≤ 0 := by omega
  obtain ⟨hs, hc, hp⟩ := @rollBuckets_eq now start windowSeconds.toNat used prev (by omega)
  simp only [rollWindow, if_neg hpos, hs, hc, hp]

theorem rollWindow_effectiveUsed {windowSeconds : UInt32} (hw : 0 < windowSeconds.toNat) :
    (rollWindow now start windowSeconds used prev).effectiveUsed.toNat =
      min (Counter.used windowSeconds.toNat ⟨start, used.toNat, prev.toNat⟩ now) (2 ^ 64 - 1) := by
  have hlt := windowSeconds.toNat_lt
  have hpos : ¬ (windowSeconds.toNat : ℤ) ≤ 0 := by omega
  obtain ⟨hs, hc, hp⟩ := @rollBuckets_eq now start windowSeconds.toNat used prev (by omega)
  simp only [rollWindow, if_neg hpos, Counter.used]
  rw [into_saturating (by omega), ← hs, ← hc, ← hp, ← word_uint64, toNat_saturatingAdd]
  congr 2
  refine UInt64.toNat_ofNat_of_lt' ((weighted_le (le_max_left _ _)).trans_lt ?_)
  exact (rollBuckets now start windowSeconds.toNat used prev).2.2.toNat_lt

theorem effectiveUsed_counter {c : ConfigAccount} (hw : 0 < c.instantRedeemWindowSeconds.toNat) :
    (rollWindow now c.instantWindowStart c.instantRedeemWindowSeconds c.instantUsedUsdc
      c.instantUsedPrevUsdc).effectiveUsed.toNat = min (c.counter.used c.window now) (2 ^ 64 - 1) :=
  rollWindow_effectiveUsed hw

end Chain

end DominionSilver
