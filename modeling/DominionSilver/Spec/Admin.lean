import DominionSilver.Spec.Execute

/-! The instructions without a delay: supply and redemption caps, pause,
guardians, admin transfer, fee exemptions and the attestation roster. -/

namespace DominionSilver

open Checked Bytes Tokens

section Caps

def validateNewMaxSupply (newMax currentCap liveSupply : UInt64) : Result Unit := do
  require (newMax ≤ MAX_SILV_SUPPLY_CEILING) .aboveMaximum
  require (newMax ≤ currentCap) .supplyCapRaiseBlocked
  require (liveSupply ≤ newMax) .supplyCapBelowSupply

def setMaxSilvSupplyHandler (newMax : UInt64) (admin : Pubkey) (w : World) : Result World := do
  requireAdmin admin w
  validateNewMaxSupply newMax w.config.maxSilvSupply w.silvMint.supply
  return { w with config := { w.config with maxSilvSupply := newMax } }

def setRedemptionsEnabledHandler (enabled : Bool) (admin : Pubkey) (w : World) : Result World := do
  requireAdmin admin w
  require (enabled = false) .redemptionsEnableBlocked
  require (w.config.redemptionsEnabled = true) .proposalNoOp
  return { w with config :=
    { w.config with redemptionsEnabled := enabled }.disarm .setRedeemLimits }

def setPublicMintEnabledHandler (enabled : Bool) (admin : Pubkey) (w : World) : Result World := do
  requireAdmin admin w
  require (enabled = false) .publicMintOpenRequiresTimelock
  require (w.config.publicMintEnabled ≠ enabled) .publicMintUnchanged
  return { w with config :=
    { w.config with publicMintEnabled := enabled }.disarm .setPublicMint }

def validateMinOperation (current requested : UInt64) : Result Unit := do
  require (requested ≤ MIN_OPERATION_CEILING_USDC) .minOperationTooHigh
  require (current ≠ requested) .minOperationUnchanged

def setMinOperationUsdcHandler (newMinUsdc : UInt64) (admin : Pubkey) (w : World) :
    Result World := do
  requireAdmin admin w
  validateMinOperation w.config.minOperationUsdc newMinUsdc
  return { w with config := { w.config with minOperationUsdc := newMinUsdc } }

/-- The slot of a queued proposal is emptied whenever the switch is among the arguments. -/
def emergencyTightenRedeemLimitsHandler (args : RedeemLimitsArgs) (admin : Pubkey) (w : World) :
    Result World := do
  requireAdmin admin w
  require (args.anySet = true) .redeemLimitsAllNone
  args.validateCeilings
  require (args.allTighten w.config = true) .looseningRequiresTimelock
  require (args.effectiveChange w.config = true) .proposalNoOp
  let config := args.writeTo w.config
  return { w with config :=
    if args.redemptionsEnabled.isSome then config.disarm .setRedeemLimits else config }

end Caps

section Pause

def pauseHandler (suppliesGuardian : Bool) (signer : Pubkey) (w : World) : Result World := do
  let guardian ← optionalAccount suppliesGuardian (w.guardians.lookup signer)
  require (isAdminOrGuardian w.config signer guardian = true) .unauthorized
  return { w with config := { w.config with paused := true } }

/-- `guardian` is the key whose guardian account is supplied. -/
def unpauseHandler (rt : Runtime) (expectedReadinessDigest : Bytes32) (guardian admin : Pubkey)
    (w : World) : Result World := do
  requireAdmin admin w
  let g ← existing (w.guardians.lookup guardian)
  constrain (g.guardian = guardian) .seeds
  require (g.cooldownUntil = 0) .guardianInCooldown
  require (0 < w.config.guardianCount) .noActiveGuardian
  require (g.guardian ≠ w.config.admin) .guardianNotIndependent
  require (rt.hash w.config.readinessBytes = expectedReadinessDigest) .staleReadinessDigest
  return { w with config := { w.config with paused := false } }

end Pause

section Guardians

def addGuardianHandler (guardianPubkey : Pubkey) (now : ℤ) (admin : Pubkey) (w : World) :
    Result World := do
  requireAdmin admin w
  let guardian := (w.guardians.lookup guardianPubkey).getD GuardianAccount.zeroed
  require (guardianPubkey ≠ w.config.admin) .unauthorized
  require (w.config.pendingAdmin ≠ some guardianPubkey) .unauthorized
  require (guardian.cooldownUntil = 0 ∨ guardian.cooldownUntil ≤ now) .guardianInCooldown
  require (¬ (guardian.addedAt ≠ 0 ∧ guardian.cooldownUntil = 0)) .proposalAlreadyActive
  require (w.config.guardianCount < w.config.maxGuardianCount) .guardianCountExceeded
  require (guardian.pendingRemovalAt = 0) .guardianRemovalAlreadyScheduled
  return { w with
    config := { w.config with guardianCount := saturatingAdd w.config.guardianCount 1 }
    guardians := w.guardians.insert guardianPubkey { guardian with
      guardian := guardianPubkey, addedAt := now, cooldownUntil := 0, selfCancelUsed := false } }

/-- Schedule a removal, or schedule an expired one anew without counting it again. -/
def removeGuardianHandler (guardianPubkey : Pubkey) (now : ℤ) (admin : Pubkey) (w : World) :
    Result World := do
  requireAdmin admin w
  let guardian ← existing (w.guardians.lookup guardianPubkey)
  require (guardian.guardian = guardianPubkey) .unauthorized
  require (guardian.cooldownUntil = 0) .guardianInCooldown
  let scheduled := guardian.pendingRemovalAt
  require (scheduled = 0 ∨ removalScheduleExpired scheduled now = true)
    .guardianRemovalAlreadyScheduled
  let effectiveAt ← orOverflow (checkedI64 (now + w.config.adminTimelockSeconds.toNat))
  let pendingRemovalCount ←
    if scheduled = 0 then do
      require (mayScheduleRemoval w.config.guardianCount w.config.pendingRemovalCount = true)
        .guardianFloorBreached
      orOverflow (checkedAdd w.config.pendingRemovalCount 1)
    else pure w.config.pendingRemovalCount
  return { w with
    config := { w.config with pendingRemovalCount }
    guardians := w.guardians.insert guardianPubkey
      { guardian with pendingRemovalAt := effectiveAt } }

def finalizeGuardianRemovalHandler (guardianPubkey : Pubkey) (now : ℤ) (w : World) :
    Result World := do
  let guardian ← existing (w.guardians.lookup guardianPubkey)
  require (guardian.guardian = guardianPubkey) .unauthorized
  require (guardian.cooldownUntil = 0) .guardianInCooldown
  let scheduled := guardian.pendingRemovalAt
  require (scheduled ≠ 0) .guardianRemovalNotScheduled
  require (scheduled ≤ now) .timelockNotElapsed
  require (removalScheduleExpired scheduled now = false) .guardianRemovalExpired
  require (MIN_ACTIVE_GUARDIANS < w.config.guardianCount) .guardianFloorBreached
  -- a plain `+`, which panics where it overflows
  let cooldownUntil ← okOr (checkedI64 (now + GUARDIAN_REMOVE_COOLDOWN_SECONDS)) .panic
  let guardianCount ← orOverflow (checkedSub w.config.guardianCount 1)
  let pendingRemovalCount ← orOverflow (checkedSub w.config.pendingRemovalCount 1)
  return { w with
    config := { w.config with guardianCount, pendingRemovalCount }
    guardians := w.guardians.insert guardianPubkey
      { guardian with cooldownUntil, pendingRemovalAt := 0 } }

/-- An expired notice may be cleared by anyone; the target may clear a live one once. -/
def cancelGuardianRemovalHandler (guardianPubkey : Pubkey) (now : ℤ) (signer : Pubkey)
    (w : World) : Result World := do
  let guardian ← existing (w.guardians.lookup guardianPubkey)
  require (guardian.guardian = guardianPubkey) .unauthorized
  let scheduled := guardian.pendingRemovalAt
  require (scheduled ≠ 0) .guardianRemovalNotScheduled
  let selfCancelUsed ←
    if removalScheduleExpired scheduled now then pure guardian.selfCancelUsed
    else if signer = w.config.admin then pure guardian.selfCancelUsed
    else if signer = guardianPubkey then do
      require (guardian.selfCancelUsed = false) .guardianSelfCancelExhausted
      pure true
    else throw (.dominion .unauthorized)
  let pendingRemovalCount ← orOverflow (checkedSub w.config.pendingRemovalCount 1)
  return { w with
    config := { w.config with pendingRemovalCount }
    guardians := w.guardians.insert guardianPubkey
      { guardian with selfCancelUsed, pendingRemovalAt := 0 } }

end Guardians

section Transfer

def proposeAdminTransferHandler (newAdmin : Pubkey) (now : ℤ) (admin : Pubkey) (w : World) :
    Result World := do
  requireAdmin admin w
  require (w.config.pendingAdmin = none ∨ w.config.pendingAdminExpiresAt < now)
    .proposalAlreadyActive
  require (newAdmin ≠ Bytes32.zero) .invalidPendingAdmin
  require (newAdmin ≠ w.config.admin) .proposalNoOp
  let eta ← orOverflow (checkedI64 (now + w.config.adminTimelockSeconds.toNat))
  let expiresAt ← orOverflow (checkedI64 (eta + PENDING_ADMIN_EXPIRY_SECONDS))
  return { w with config := { w.config with
    pendingAdmin := some newAdmin, pendingAdminEta := eta, pendingAdminExpiresAt := expiresAt } }

def acceptAdminTransferHandler (now : ℤ) (newAdmin : Pubkey) (w : World) : Result World := do
  let pending ← okOr w.config.pendingAdmin (.dominion .invalidPendingAdmin)
  require (pending = newAdmin) .invalidPendingAdmin
  require (now ≤ w.config.pendingAdminExpiresAt) .pendingAdminExpired
  require (w.config.pendingAdminEta ≤ now) .timelockNotElapsed
  return { w with config := { w.config with
    admin := pending, pendingAdmin := none, pendingAdminExpiresAt := 0, pendingAdminEta := 0 } }

def cancelAdminTransferHandler (suppliesGuardian : Bool) (signer : Pubkey) (w : World) :
    Result World := do
  let guardian ← optionalAccount suppliesGuardian (w.guardians.lookup signer)
  require (isAdminOrGuardian w.config signer guardian = true) .unauthorized
  return { w with config := { w.config with
    pendingAdmin := none, pendingAdminExpiresAt := 0, pendingAdminEta := 0 } }

end Transfer

section Fees

def setFeeExemptHandler (wallet : Pubkey) (flags : UInt8) (expiresAt now : ℤ) (admin : Pubkey)
    (w : World) : Result World := do
  requireAdmin admin w
  validateFeeExemptFlags flags
  validateFeeExemptExpiry expiresAt now
  let acc := (w.feeExempts.lookup wallet).getD FeeExemptAccount.zeroed
  return { w with
    feeExempts := w.feeExempts.insert wallet
      { wallet := wallet, flags := flags, addedAt := if acc.addedAt = 0 then now else acc.addedAt,
        addedBy := admin, expiresAt := expiresAt } }

def removeFeeExemptHandler (wallet admin : Pubkey) (w : World) : Result World := do
  requireAdmin admin w
  let acc ← existing (w.feeExempts.lookup wallet)
  require (acc.wallet = wallet) .attestationWalletMismatch
  return { w with feeExempts := w.feeExempts.erase wallet }

/-- Any USDC account may receive the sweep, except one that the fee vault's own authority owns. -/
def withdrawFeesHandler (rt : Runtime) (amount : UInt64) (destination admin : Pubkey) (w : World) :
    Result World := do
  requireAdmin admin w
  let feeVault ← associated rt w.usdc rt.feeVaultPda w.config.usdcMint
  let dest ← tokenAccount w.usdc destination w.config.usdcMint
  let treasury ← existing (w.usdc.lookup w.config.usdcTreasury)
  require (w.config.paused = false) .paused
  require (0 < amount) .zeroAmount
  require (w.config.treasuryMinFloatUsdc ≤ treasury.amount) .floorBreached
  require (destination ≠ w.feeVault rt) .withdrawRecipientMismatch
  require (dest.owner ≠ rt.feeVaultPda) .feeWithdrawDestinationStranded
  require (amount ≤ feeVault.amount) .insufficientFeeVault
  let usdc ← cpi (rt.tokens.transferChecked w.usdc w.config.usdcMint (w.feeVault rt) destination
    rt.feeVaultPda amount w.usdcDecimals)
  return { w with usdc }

def setFeeRoutingEnabledHandler (enabled : Bool) (admin : Pubkey) (w : World) : Result World := do
  requireAdmin admin w
  require (enabled = w.config.feeRoutingDisabled) .proposalNoOp
  return { w with config := { w.config with feeRoutingDisabled := !enabled } }

end Fees

section Kyc

def setKycOperatorHandler (operator admin : Pubkey) (w : World) : Result World := do
  requireAdmin admin w
  validateKycOperatorAssignment operator w.config.admin w.config.kycScopeFlags
  return { w with config := { w.config with kycOperator := operator } }

def setKycScopeHandler (flags : UInt8) (admin : Pubkey) (w : World) : Result World := do
  requireAdmin admin w
  validateKycScope flags
  require (flags ≠ w.config.kycScopeFlags) .kycScopeInvalid
  validateKycArming flags w.config.kycOperator w.config.kycAttestationCount
  return { w with config :=
    { w.config with kycScopeFlags := flags, kycEnforced := decide (flags ≠ 0) } }

def attestKycHandler (wallet : Pubkey) (reference : Bytes32) (now : ℤ) (attestor : Pubkey)
    (w : World) : Result World := do
  require (attestor = w.config.kycOperator) .unauthorized
  validateKycSubject wallet
  let acc := (w.kycs.lookup wallet).getD KycAccount.zeroed
  let isNew : Bool := acc.version = 0
  let count ← nextAttestationCount w.config.kycAttestationCount isNew
  return { w with
    config := { w.config with kycAttestationCount := count }
    kycs := w.kycs.insert wallet ⟨wallet, now, attestor, reference, KYC_ACCOUNT_VERSION⟩ }

def revokeKycHandler (wallet : Pubkey) (allowDisarm : Bool) (signer : Pubkey) (w : World) :
    Result World := do
  require (signer = w.config.kycOperator ∨ signer = w.config.admin) .unauthorized
  let acc ← existing (w.kycs.lookup wallet)
  require (acc.wallet = wallet) .attestationWalletMismatch
  let outcome ← resolveRevocation w.config.kycScopeFlags w.config.kycAttestationCount
    (signer = w.config.admin) allowDisarm
  return { w with
    config := { w.config with
      kycAttestationCount := outcome.countAfter, kycScopeFlags := outcome.scopeAfter,
      kycEnforced := decide (outcome.scopeAfter ≠ 0) }
    kycs := w.kycs.erase wallet }

end Kyc

end DominionSilver
