import DominionSilver.Spec.State

/-! Prices, fees and the redemption window: `math.rs` and
`state/redeem_window.rs`. -/

namespace DominionSilver

open Checked

abbrev PRICE_SCALE_FACTOR : ℕ := 1000000000
abbrev BPS_DENOM : ℕ := 10000

/-- The premium on `amount`, rounded up. -/
def feeFromAmount (amount : UInt64) (bps : UInt16) : Result UInt64 :=
  if bps = 0 then .ok 0
  else do
    let numerator ← orOverflow (checkedU128 (amount.toNat * bps.toNat))
    let raised ← orOverflow (checkedU128 (numerator + (BPS_DENOM - 1)))
    orOverflow (tryFrom UInt64 (raised / BPS_DENOM))

def mintSilvOut (amountUsdc : UInt64) (effectivePriceScaled : ℕ) : Result UInt64 := do
  require (0 < effectivePriceScaled) .priceOutOfBounds
  let num ← orOverflow (checkedU128 (amountUsdc.toNat * PRICE_SCALE_FACTOR))
  orOverflow (tryFrom UInt64 (num / effectivePriceScaled))

def silvToUsdcAtOracle (amountSilv : UInt64) (oracleScaled : ℕ) : Result UInt64 := do
  let num ← orOverflow (checkedU128 (amountSilv.toNat * oracleScaled))
  orOverflow (tryFrom UInt64 (num / PRICE_SCALE_FACTOR))

structure WindowDecision where
  effectiveUsed : UInt64
  newWindowStart : ℤ
  rolledCurrent : UInt64
  rolledPrev : UInt64
deriving DecidableEq

/-- The start and the two buckets once they are rolled forward to `now`. -/
def rollBuckets (now windowStart w : ℤ) (usedCurrent usedPrev : UInt64) : ℤ × UInt64 × UInt64 :=
  -- a start in the future reads as no time passed
  let elapsed := max (saturatingI64 (now - windowStart)) 0
  if windowStart = 0 then (now, usedCurrent, usedPrev)
  else if 2 * w ≤ elapsed then (now, 0, 0)
  else if w ≤ elapsed then (windowStart + w, 0, usedCurrent)
  else (windowStart, usedCurrent, usedPrev)

def rollWindow (now windowStart : ℤ) (windowSeconds : UInt32) (usedCurrent usedPrev : UInt64) :
    WindowDecision :=
  let w : ℤ := windowSeconds.toNat
  -- the zero window fails open
  if w ≤ 0 then ⟨0, now, 0, 0⟩
  else
    let (start, current, prev) := rollBuckets now windowStart w usedCurrent usedPrev
    let into := max 0 (min w (saturatingI64 (now - start)))
    let weightedPrev := UInt64.ofNat (prev.toNat * (w - into).toNat / w.toNat)
    ⟨saturatingAdd current weightedPrev, start, current, prev⟩

end DominionSilver
