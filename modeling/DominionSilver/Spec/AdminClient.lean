import DominionSilver.Spec.Clients

/-! What the admin console shows: the rosters of the guardians and of the fee exemptions and the
dashboard (`lib/anchor-client.ts` of the admin app). The rows come in whatever order the RPC returns
the accounts; `none` is an error that the number library throws. -/

namespace DominionSilver

open Doubles

variable [BnJs]

namespace AdminApp

section Rosters

abbrev GUARDIAN_REMOVAL_EXEC_WINDOW_SECONDS : ℤ := 7 * 86400

structure GuardianView where
  guardian : Pubkey
  addedAt : BN
  cooldownUntil : BN
  pendingRemovalAt : BN
  selfCancelUsed : Bool
  active : Bool
  inertBecauseAdmin : Bool
  removalExpired : Bool
deriving DecidableEq

/-- Whether a scheduled removal has aged out. -/
def removalExpired (nowSecs : ℤ) (pendingRemovalAt : BN) : Option Bool :=
  if pendingRemovalAt = 0 then some false
  else do
    let at' ← BnJs.toNumber pendingRemovalAt
    return ofInt (at' + GUARDIAN_REMOVAL_EXEC_WINDOW_SECONDS) < nowSecs

def guardianView (admin : Option Pubkey) (nowSecs : ℤ) (a : GuardianAccount) :
    Option GuardianView := do
  let inertBecauseAdmin : Bool := match admin with
    | some admin => a.guardian = admin
    | none => false
  let removalExpired ← removalExpired nowSecs a.pendingRemovalAt
  return {
    guardian := a.guardian
    addedAt := a.addedAt
    cooldownUntil := a.cooldownUntil
    pendingRemovalAt := a.pendingRemovalAt
    selfCancelUsed := a.selfCancelUsed
    active := a.cooldownUntil = 0 && !inertBecauseAdmin
    inertBecauseAdmin
    removalExpired }

/-- Newest first. -/
def fetchGuardians (rows : List GuardianAccount) (admin : Option Pubkey) (nowSecs : ℤ) :
    Option (List GuardianView) := do
  let views ← rows.mapM (guardianView admin nowSecs)
  return views.mergeSort fun a b => b.addedAt ≤ a.addedAt

structure FeeExemptView where
  wallet : Pubkey
  flags : ℕ
  addedAt : BN
  addedBy : Pubkey
  expiresAt : BN
  active : Bool
deriving DecidableEq

def feeExemptView (nowSecs : ℤ) (a : FeeExemptAccount) : Option FeeExemptView := do
  return ⟨a.wallet, a.flags.toNat, a.addedAt, a.addedBy, a.expiresAt,
    ← BnJs.gtn a.expiresAt nowSecs⟩

/-- Soonest to expire first. -/
def fetchFeeExempts (rows : List FeeExemptAccount) (nowSecs : ℤ) : Option (List FeeExemptView) := do
  let views ← rows.mapM (feeExemptView nowSecs)
  return views.mergeSort fun x y => x.expiresAt ≤ y.expiresAt

end Rosters

section Dashboard

/-- A settled read: an amount, or how the text of what it was rejected for begins. -/
abbrev SettledAmount : Type := Except String BN

structure TokenAmounts where
  treasuryUsdc : BN
  silvSupply : BN
  degraded : List String

def readTokenAmounts (balanceInfo supplyInfo : SettledAmount) : TokenAmounts :=
  let (treasuryUsdc, degraded) := match balanceInfo with
    | .ok amount => (amount, [])
    | .error reason => (0, ["treasury USDC balance (" ++ reason ++ ")"])
  let (silvSupply, degraded) := match supplyInfo with
    | .ok amount => (amount, degraded)
    | .error reason => (0, degraded ++ ["SILV supply (" ++ reason ++ ")"])
  { treasuryUsdc, silvSupply, degraded }

structure DashboardSnapshot where
  cfg : ConfigAccount
  treasuryUsdc : BN
  silvSupply : BN
  supplyUtilizationBps : Option ℤ
  instantBudgetRemainingUsdc : BN
  effectiveUsedUsdc : BN
  instantWindowExpired : Bool
  instantWindowNeverStarted : Bool
  treasuryFloatOk : Bool
  degraded : List String

/-- How much of the cap is used; nothing where there is no cap. -/
def supplyUtilizationBps (silvSupply : BN) (maxSilvSupply : UInt64) : Option (Option ℤ) :=
  if maxSilvSupply = 0 then some none
  else (BnJs.toNumber ((silvSupply * 10000).tdiv (BN.ofU64 maxSilvSupply))).map some

/-- The snapshot at `nowSecs`; `some none` before the config is there. -/
def fetchDashboardSnapshot (cfg : Option ConfigAccount) (balanceInfo supplyInfo : SettledAmount)
    (nowSecs : ℤ) : Option (Option DashboardSnapshot) :=
  match cfg with
  | none => some none
  | some c => do
    let { treasuryUsdc, silvSupply, degraded } := readTokenAmounts balanceInfo supplyInfo
    let supplyUtilizationBps ← supplyUtilizationBps silvSupply c.maxSilvSupply
    let w : ℤ := c.instantRedeemWindowSeconds.toNat
    let windowStart ← BnJs.toNumber c.instantWindowStart
    let instantWindowNeverStarted : Bool := c.instantWindowStart = 0
    let elapsed := max 0 (ofInt (nowSecs - windowStart))
    let effectiveUsedUsdc ← effectiveUsedUsdc c nowSecs
    let instantWindowExpired : Bool :=
      !instantWindowNeverStarted && decide (0 < w ∧ ofInt (2 * w) ≤ elapsed)
    let remaining := BN.ofU64 c.instantRedeemBudgetUsdc - effectiveUsedUsdc
    let instantBudgetRemainingUsdc := if remaining < 0 then 0 else remaining
    let treasuryFloatOk : Bool := decide (BN.ofU64 c.treasuryMinFloatUsdc ≤ treasuryUsdc)
    return some {
      cfg := c
      treasuryUsdc
      silvSupply
      supplyUtilizationBps
      instantBudgetRemainingUsdc
      effectiveUsedUsdc
      instantWindowExpired
      instantWindowNeverStarted
      treasuryFloatOk
      degraded }

end Dashboard

end AdminApp

end DominionSilver
