import DominionSilver.Spec.Args

/-! The twelve propose instructions (`admin/propose.rs`). -/

namespace DominionSilver

open Checked Bytes

/-- What the propose handlers share: the account checks, the handler's own checks, and queueing its
change under the next nonce. -/
def propose (change : Change) (check : ConfigAccount → Result Unit) (now : ℤ) (admin : Pubkey)
    (w : World) : Result World := do
  requireAdmin admin w
  -- `init` of the timelock account
  constrain (w.timelocks.lookup w.config.nextTimelockNonce = none) .accountInUse
  check w.config
  require (w.config.pendingNonce change.kind = none) .proposalAlreadyActive
  require (w.config.activeProposalCount < MAX_ACTIVE_PROPOSALS) .tooManyActiveProposals
  let nonce := w.config.nextTimelockNonce
  let executableAt ← orOverflow (checkedI64 (now + w.config.adminTimelockSeconds.toNat))
  let data ← change.encode
  let nextNonce ← orOverflow (checkedAdd nonce 1)
  let count ← orOverflow (checkedAdd w.config.activeProposalCount 1)
  return { w with
    config := { w.config with
      nextTimelockNonce := nextNonce
      activeProposalCount := count
      pendingNonce := Function.update w.config.pendingNonce change.kind (some nonce) }
    timelocks := w.timelocks.insert nonce
      { nonce := nonce, actionDisc := change.kind.disc, actionData := data, scheduledAt := now,
        executableAt := executableAt, executedAt := none, cancelled := false, proposer := admin,
        rentPayer := admin } }

/-- The only propose that also writes outside the queue: public mints pause until it is due. -/
def proposeSetPremiumMintHandler (newBps : UInt16) (now : ℤ) (admin : Pubkey) (w : World) :
    Result World := do
  let w' ← propose (.premiumMint newBps) (fun c => do
    require (newBps ≤ PREMIUM_BPS_MINT_CEILING) .premiumTooHigh
    require (PREMIUM_BPS_COMBINED_FLOOR.toNat ≤ newBps.toNat + c.premiumBpsRedeem.toNat)
      .premiumSpreadTooLow
    require (newBps ≠ c.premiumBpsMint) .proposalNoOp) now admin w
  return { w' with config := { w'.config with
    mintPausedUntil := now + w.config.adminTimelockSeconds.toNat } }

def proposeSetPremiumRedeemHandler (newBps : UInt16) : ℤ → Pubkey → World → Result World :=
  propose (.premiumRedeem newBps) fun c => do
    require (newBps ≤ PREMIUM_BPS_REDEEM_CEILING) .premiumTooHigh
    require (PREMIUM_BPS_COMBINED_FLOOR.toNat ≤ c.premiumBpsMint.toNat + newBps.toNat)
      .premiumSpreadTooLow
    require (newBps ≠ c.premiumBpsRedeem) .proposalNoOp

def proposeWithdrawUsdcHandler (amount : UInt64) (recipient : Pubkey) :
    ℤ → Pubkey → World → Result World :=
  propose (.withdrawUsdc amount recipient) fun _ => require (0 < amount) .zeroAmount

def proposeSetPublicMintHandler (newValue : Bool) : ℤ → Pubkey → World → Result World :=
  propose (.publicMint newValue) fun c => do
    require (newValue = true) .publicMintOpenRequiresTimelock
    require (newValue ≠ c.publicMintEnabled) .publicMintUnchanged

def proposeSetInventoryWalletHandler (newWallet : Pubkey) : ℤ → Pubkey → World → Result World :=
  propose (.inventoryWallet newWallet) fun c => do
    require (newWallet ≠ Bytes32.zero) .inventoryWalletNotSet
    require (newWallet ≠ c.inventoryWallet) .inventoryWalletUnchanged

def proposeSetComplianceModeHandler (newValue : Bool) : ℤ → Pubkey → World → Result World :=
  propose (.complianceMode newValue) fun c =>
    require (newValue ≠ c.complianceMode) .complianceModeUnchanged

def proposeSetOracleGuardsHandler (args : OracleGuardsArgs) : ℤ → Pubkey → World → Result World :=
  propose (.oracleGuards args) fun c => do
    require (args.anySet = true) .oracleGuardsAllNone
    requireSome args.staleness StalenessInBounds .aboveMaximum
    requireSome args.confBps ConfBpsInBounds .aboveMaximum
    requireSome args.maxDeltaBps MaxDeltaBpsInBounds .aboveMaximum
    requireSome args.decaySeconds DecaySecondsInBounds .aboveMaximum
    requireSome args.dustFilterMinUsdc (· ≤ 1000000000000) .aboveMaximum
    requireSome args.minPublishers (MIN_PUBLISHERS_FLOOR_HARD ≤ ·) .lazerTooFewPublishers
    requireSome args.maxPriceScaled MaxPriceInBounds .priceOutOfBounds
    requireSome args.minPriceScaled MinPriceInBounds .priceOutOfBounds
    let effMin := args.minPriceScaled.getD c.minPriceUsdScaled
    let effMax := args.maxPriceScaled.getD c.maxPriceUsdScaled
    require (effMin = 0 ∨ effMin < effMax) .priceOutOfBounds
    require (args.effectiveChange c = true) .proposalNoOp

def proposeSetRedeemLimitsHandler (args : RedeemLimitsArgs) : ℤ → Pubkey → World → Result World :=
  propose (.redeemLimits args) fun c => do
    require (args.anySet = true) .redeemLimitsAllNone
    args.validateCeilings
    require (args.effectiveChange c = true) .proposalNoOp

def proposeSetTreasuryMinFloatHandler (newFloatUsdc : UInt64) :
    ℤ → Pubkey → World → Result World :=
  propose (.treasuryFloat newFloatUsdc) fun c => do
    require (newFloatUsdc ≤ TREASURY_FLOAT_CEILING_USDC) .aboveMaximum
    require (newFloatUsdc ≠ c.treasuryMinFloatUsdc) .proposalNoOp

def proposeSetAdminTimelockHandler (newSeconds : UInt32) : ℤ → Pubkey → World → Result World :=
  propose (.adminTimelock newSeconds) fun c => do
    require (ADMIN_TIMELOCK_MIN_SECONDS ≤ newSeconds) .timelockTooShort
    require (newSeconds ≤ ADMIN_TIMELOCK_MAX_SECONDS) .timelockTooLong
    require (newSeconds ≠ c.adminTimelockSeconds) .proposalNoOp

def proposeSetPythFeedHandler (newLazerFeedId : UInt32) : ℤ → Pubkey → World → Result World :=
  propose (.pythFeed newLazerFeedId) fun c => do
    require (newLazerFeedId ≠ 0) .invalidFeedId
    require (newLazerFeedId ≠ c.pythLazerFeedId) .proposalNoOp

def proposeUpdateMetadataHandler (args : MetadataArgs) : ℤ → Pubkey → World → Result World :=
  propose (.metadata args) fun _ => validateMetadataArgs args

/-- The propose instruction of a change. -/
def proposeHandler : Change → ℤ → Pubkey → World → Result World
  | .premiumMint newBps => proposeSetPremiumMintHandler newBps
  | .premiumRedeem newBps => proposeSetPremiumRedeemHandler newBps
  | .withdrawUsdc amount recipient => proposeWithdrawUsdcHandler amount recipient
  | .treasuryFloat newFloatUsdc => proposeSetTreasuryMinFloatHandler newFloatUsdc
  | .oracleGuards args => proposeSetOracleGuardsHandler args
  | .metadata args => proposeUpdateMetadataHandler args
  | .complianceMode newValue => proposeSetComplianceModeHandler newValue
  | .pythFeed newLazerFeedId => proposeSetPythFeedHandler newLazerFeedId
  | .adminTimelock newSeconds => proposeSetAdminTimelockHandler newSeconds
  | .redeemLimits args => proposeSetRedeemLimitsHandler args
  | .publicMint newValue => proposeSetPublicMintHandler newValue
  | .inventoryWallet newWallet => proposeSetInventoryWalletHandler newWallet

end DominionSilver
