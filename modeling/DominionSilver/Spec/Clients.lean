import DominionSilver.Spec.Math
import DominionSilver.Spec.Numbers

/-! What the clients work out for themselves about redemptions: `lib/anchor-client.ts` and
`lib/lazer-tx.ts` of the public app, `lib/anchor-client.ts` of the admin app and
`scripts/_redeem-window.ts`. A `number` is a double, and those here are integers, rounded after each
operation. `none` is an error thrown. -/

namespace DominionSilver

open Doubles

variable [BnJs]

inductive RedeemRoute
  | instant | limit | otc | kyc | disabled
deriving DecidableEq

namespace PublicApp

/-- The usage in the window at `nowUnixSecs`. -/
def effectiveRedeemUsed (cfg : ConfigAccount) (nowUnixSecs : ℤ) : Option BN := do
  let w : ℤ := cfg.instantRedeemWindowSeconds.toNat
  if w ≤ 0 then return 0
  let windowStart ← BnJs.toNumber cfg.instantWindowStart
  let usedCurrent := BN.ofU64 cfg.instantUsedUsdc
  let usedPrev := BN.ofU64 cfg.instantUsedPrevUsdc
  let elapsed := max 0 (ofInt (nowUnixSecs - windowStart))
  let (start, current, prev) :=
    if windowStart = 0 then (nowUnixSecs, usedCurrent, usedPrev)
    else if ofInt (2 * w) ≤ elapsed then (nowUnixSecs, 0, 0)
    else if w ≤ elapsed then (ofInt (windowStart + w), 0, usedCurrent)
    else (windowStart, usedCurrent, usedPrev)
  let into := min (max 0 (ofInt (nowUnixSecs - start))) w
  let weightedPrev ← BnJs.divn (← BnJs.muln prev (ofInt (w - into))) w
  return current + weightedPrev

def redeemGrossUsdc (amountSilv silverPriceScaled : BN) : BN :=
  (amountSilv * silverPriceScaled).tdiv (10 ^ 9)

def feeFromAmount (amount : BN) (bps : ℤ) : BN :=
  if bps = 0 then 0 else (amount * bps + (10000 - 1)).tdiv 10000

/-- The most a user can receive. `effectiveBpsRedeem` is the premium the wallet pays, by default the
configured one. -/
def computeMaxInstantRedeemableUsdc (cfg : ConfigAccount) (treasuryBalanceUsdc : BN)
    (nowUnixSecs : ℤ) (effectiveBpsRedeem : Option ℤ) : Option BN := do
  if cfg.paused || !cfg.redemptionsEnabled then return 0
  let remaining := BN.ofU64 cfg.instantRedeemBudgetUsdc - (← effectiveRedeemUsed cfg nowUnixSecs)
  let budgetRemaining := if remaining < 0 then 0 else remaining
  let outflowMax :=
    if treasuryBalanceUsdc < budgetRemaining then treasuryBalanceUsdc else budgetRemaining
  let outflowMax := if outflowMax < 0 then 0 else outflowMax
  let bps := effectiveBpsRedeem.getD cfg.premiumBpsRedeem.toNat
  return if cfg.feeRoutingDisabled then outflowMax else outflowMax - feeFromAmount outflowMax bps

/-- The gross that yields `maxNet` to the user, i.e. what the UI would build. -/
def grossForNet (maxNet : BN) (bps : ℤ) : BN := (maxNet * 10000).tdiv (10000 - bps)

def redeemOutflowForGross (cfg : ConfigAccount) (grossUsdc : BN) (effectiveBpsRedeem : Option ℤ) :
    BN :=
  if cfg.feeRoutingDisabled then
    grossUsdc - feeFromAmount grossUsdc (effectiveBpsRedeem.getD cfg.premiumBpsRedeem.toNat)
  else grossUsdc

/-- `kycAttested` is `none` while it is not known. -/
def classifyRedeem (cfg : ConfigAccount) (treasuryBalanceUsdc grossUsdc : BN) (nowUnixSecs : ℤ)
    (kycAttested : Option Bool) (effectiveBpsRedeem : Option ℤ) : Option RedeemRoute := do
  if cfg.paused || !cfg.redemptionsEnabled then return .disabled
  if cfg.kycScopeFlags &&& 2 ≠ 0 ∧ kycAttested ≠ some true then return .kyc
  let outflow := redeemOutflowForGross cfg grossUsdc effectiveBpsRedeem
  let used ← effectiveRedeemUsed cfg nowUnixSecs
  if BN.ofU64 cfg.instantRedeemBudgetUsdc < used + outflow then return .limit
  if treasuryBalanceUsdc < outflow then return .otc
  return .instant

/-- The expiry of a fee exemption as the app decodes it. -/
def decodeFeeExemptExpiry (e : FeeExemptAccount) : ℤ := ofInt e.expiresAt

def effectivePremiumBps (configuredBps : ℤ) (flags : Option UInt8) (expiresAt : Option ℤ)
    (side : Side) (nowSecs : ℤ) : ℤ :=
  match flags, expiresAt with
  | some flags, some expiresAt =>
    if expiresAt = 0 ∨ expiresAt ≤ nowSecs then configuredBps
    else
      let bit : UInt8 := match side with
        | .mint => 1
        | .redeem => 2
      if flags &&& bit ≠ 0 then 0 else configuredBps
  | _, _ => configuredBps

end PublicApp

namespace AdminApp

/-- The dashboard's usage in the window at `nowSecs`. -/
def effectiveUsedUsdc (c : ConfigAccount) (nowSecs : ℤ) : Option BN := do
  let w : ℤ := c.instantRedeemWindowSeconds.toNat
  let windowStart ← BnJs.toNumber c.instantWindowStart
  let instantUsedUsdc := BN.ofU64 c.instantUsedUsdc
  let instantUsedPrevUsdc := BN.ofU64 c.instantUsedPrevUsdc
  let elapsed := max 0 (ofInt (nowSecs - windowStart))
  let (bucketStart, current, prev) :=
    if c.instantWindowStart = 0 then (nowSecs, instantUsedUsdc, instantUsedPrevUsdc)
    else if 0 < w ∧ ofInt (2 * w) ≤ elapsed then (nowSecs, 0, 0)
    else if 0 < w ∧ w ≤ elapsed then (ofInt (windowStart + w), 0, instantUsedUsdc)
    else (windowStart, instantUsedUsdc, instantUsedPrevUsdc)
  let into := if 0 < w then min (max 0 (ofInt (nowSecs - bucketStart))) w else 0
  if 0 < w then
    let weightedPrev ← BnJs.divn (← BnJs.muln prev (ofInt (w - into))) w
    return current + weightedPrev
  else return 0

end AdminApp

namespace Scripts

structure WindowDecision where
  effectiveUsed : ℤ
  newWindowStart : ℤ
  rolledCurrent : ℤ
  rolledPrev : ℤ
deriving DecidableEq

/-- The same over integers of any size, so that nothing is rounded. -/
def rollWindow (now windowStart windowSeconds usedCurrent usedPrev : ℤ) : WindowDecision :=
  let w := windowSeconds
  if w ≤ 0 then ⟨0, now, 0, 0⟩
  else
    let elapsed := if 0 < now - windowStart then now - windowStart else 0
    let (start, current, prev) :=
      if windowStart = 0 then (now, usedCurrent, usedPrev)
      else if 2 * w ≤ elapsed then (now, 0, 0)
      else if w ≤ elapsed then (windowStart + w, 0, usedCurrent)
      else (windowStart, usedCurrent, usedPrev)
    let rawInto := now - start
    let into := if rawInto < 0 then 0 else if w < rawInto then w else rawInto
    let weightedPrev := (prev * (w - into)).tdiv w
    ⟨current + weightedPrev, start, current, prev⟩

end Scripts

end DominionSilver
