import DominionSilver.Spec.World

/-! The one-shot `initialize`, from the accounts that are there before it. -/

namespace DominionSilver

open Checked Bytes Tokens

structure InitializeArgs where
  admin : Pubkey
  permanentDelegateExpected : Pubkey
  freezeAuthorityExpected : Pubkey
  complianceMode : Bool
  premiumBpsMint : UInt16
  premiumBpsRedeem : UInt16
  pythLazerFeedId : UInt32
  adminTimelockSeconds : UInt32
  maxGuardianCount : UInt8
  inventoryWallet : Pubkey
  guardian : Pubkey

/-- What exists before the program is initialized. -/
structure Genesis where
  /-- Of the deployed program; `none` once it is immutable. -/
  upgradeAuthority : Option Pubkey
  usdcMint : Pubkey
  usdcDecimals : UInt8
  silvMintKey : Pubkey
  silvMint : Mint Pubkey
  usdc : Ledger Pubkey
  silv : Ledger Pubkey

/-- The pointer, the metadata and the delegate that the SILV mint must be created with. -/
def checkMintExtensions (rt : Runtime) (args : InitializeArgs) (g : Genesis) : Result Unit := do
  let (mpAuthority, mpAddress) ← okOr (g.silvMint.extensions.findSome? fun
    | .metadataPointer a m => some (a, m)
    | _ => none) (.dominion .wrongMint)
  require (mpAuthority = some rt.silvMetadataAuthority) .silvMetadataUpdateAuthorityMismatch
  require (mpAddress = some g.silvMintKey) .silvMetadataUpdateAuthorityMismatch
  let (mdAuthority, mdMint) ← okOr (g.silvMint.extensions.findSome? fun
    | .tokenMetadata a m _ _ _ => some (a, m)
    | _ => none) (.dominion .wrongMint)
  require (mdAuthority = some rt.silvMetadataAuthority) .silvMetadataUpdateAuthorityMismatch
  require (mdMint = g.silvMintKey) .silvMetadataUpdateAuthorityMismatch
  let delegate ← okOr (permanentDelegate? g.silvMint) (.dominion .permanentDelegateMismatch)
  require (delegate = some args.permanentDelegateExpected) .permanentDelegateMismatch
  require (∀ e ∈ g.silvMint.extensions, allowedExtension e = true) .disallowedMintExtension

/-- The config that `initialize` writes. -/
def initialConfig (rt : Runtime) (args : InitializeArgs) (g : Genesis) (adminTimelock : UInt32)
    (maxGuardians : UInt8) : ConfigAccount where
  admin := args.admin
  pendingAdmin := none
  pendingAdminExpiresAt := 0
  permanentDelegateExpected := args.permanentDelegateExpected
  freezeAuthorityExpected := args.freezeAuthorityExpected
  complianceMode := args.complianceMode
  premiumBpsMint := args.premiumBpsMint
  premiumBpsRedeem := args.premiumBpsRedeem
  pythLazerFeedId := args.pythLazerFeedId
  minPublishers := DEFAULT_MIN_PUBLISHERS
  lastUsedFeedUpdateTimestampUs := 0
  usdcMint := g.usdcMint
  silvMint := g.silvMintKey
  usdcTreasury := rt.ata rt.treasuryPda g.usdcMint
  maxStalenessSeconds := DEFAULT_MAX_STALENESS_SECONDS
  maxConfidenceBps := DEFAULT_MAX_CONFIDENCE_BPS
  minPriceUsdScaled := DEFAULT_MIN_PRICE_USD_SCALED
  maxPriceUsdScaled := DEFAULT_MAX_PRICE_USD_SCALED
  lastRecordedPriceScaled := 0
  lastPriceUpdateAt := 0
  maxPriceDeltaBps := DEFAULT_MAX_PRICE_DELTA_BPS
  priceDeltaDecaySeconds := DEFAULT_PRICE_DELTA_DECAY_SECONDS
  priceUpdateMinAmountUsdc := DEFAULT_PRICE_UPDATE_MIN_AMOUNT_USDC
  maxSilvSupply := DEFAULT_MAX_SILV_SUPPLY
  treasuryMinFloatUsdc := DEFAULT_TREASURY_MIN_FLOAT_USDC
  redemptionsEnabled := true
  largeRedeemThresholdUsdc := DEFAULT_LARGE_REDEEM_THRESHOLD_USDC
  instantRedeemBudgetUsdc := DEFAULT_INSTANT_REDEEM_BUDGET_USDC
  instantRedeemWindowSeconds := DEFAULT_INSTANT_REDEEM_WINDOW_SECONDS
  redeemQueueDelaySeconds := DEFAULT_REDEEM_QUEUE_DELAY_SECONDS
  instantWindowStart := 0
  instantUsedUsdc := 0
  adminTimelockSeconds := adminTimelock
  maxGuardianCount := maxGuardians
  guardianCount := 1
  mintPausedUntil := 0
  paused := true
  nextTimelockNonce := 0
  activeProposalCount := 0
  pendingNonce := fun _ => none
  pendingAdminEta := 0
  inventoryWallet := args.inventoryWallet
  publicMintEnabled := true
  kycOperator := Bytes32.zero
  kycEnforced := false
  pendingRemovalCount := 0
  kycScopeFlags := 0
  instantUsedPrevUsdc := 0
  feeRoutingDisabled := false
  kycAttestationCount := 0
  minOperationUsdc := DEFAULT_MIN_OPERATION_USDC

def initializeHandler (rt : Runtime) (args : InitializeArgs) (now : ℤ) (deployer : Pubkey)
    (g : Genesis) : Result World := do
  let usdc ← initAssociated rt g.usdc rt.treasuryPda g.usdcMint
  let upgradeAuthority ← okOr g.upgradeAuthority (.dominion .programNotUpgradeable)
  require (upgradeAuthority = deployer) .deployerNotUpgradeAuthority
  require (args.pythLazerFeedId ≠ 0) .invalidFeedId
  require (args.admin ≠ Bytes32.zero) .unauthorized
  require (args.permanentDelegateExpected ≠ Bytes32.zero) .permanentDelegateMismatch
  require (args.premiumBpsMint ≤ PREMIUM_BPS_MINT_CEILING) .premiumTooHigh
  require (args.premiumBpsRedeem ≤ PREMIUM_BPS_REDEEM_CEILING) .premiumTooHigh
  require (PREMIUM_BPS_COMBINED_FLOOR.toNat ≤
    args.premiumBpsMint.toNat + args.premiumBpsRedeem.toNat) .premiumSpreadTooLow
  require (g.usdcDecimals = 6) .wrongMint
  require (g.silvMint.decimals = 6) .wrongMint
  require (g.usdcMint = USDC_MAINNET ∨ g.usdcMint = USDC_DEVNET ∨ g.usdcMint = USDC_TESTNET)
    .usdcMintNotAllowed
  require (g.silvMint.supply = 0) .silvMintHasPreexistingSupply
  require (g.silvMint.mintAuthority = some rt.silvMintAuthority) .silvMintAuthorityMismatch
  require (args.freezeAuthorityExpected ≠ Bytes32.zero) .silvFreezeAuthorityMismatch
  require (g.silvMint.freezeAuthority = some args.freezeAuthorityExpected)
    .silvFreezeAuthorityMismatch
  checkMintExtensions rt args g
  let adminTimelock :=
    if args.adminTimelockSeconds = 0 then DEFAULT_ADMIN_TIMELOCK_SECONDS
    else args.adminTimelockSeconds
  require (ADMIN_TIMELOCK_MIN_SECONDS ≤ adminTimelock) .timelockTooShort
  require (adminTimelock ≤ ADMIN_TIMELOCK_MAX_SECONDS) .timelockTooLong
  let maxGuardians :=
    if args.maxGuardianCount = 0 then MAX_GUARDIAN_COUNT_DEFAULT else args.maxGuardianCount
  let config := initialConfig rt args g adminTimelock maxGuardians
  config.assertPremiumWithinBounds
  require (args.guardian ≠ Bytes32.zero) .noActiveGuardian
  require (args.guardian ≠ args.admin) .guardianNotIndependent
  require (args.inventoryWallet ≠ Bytes32.zero) .inventoryWalletNotSet
  return {
    config
    timelocks := ∅
    guardians := (∅ : Accounts Pubkey GuardianAccount).insert args.guardian
      { guardian := args.guardian, addedAt := now, cooldownUntil := 0, pendingRemovalAt := 0,
        selfCancelUsed := false }
    feeExempts := ∅
    kycs := ∅
    silvMint := g.silvMint
    usdcDecimals := g.usdcDecimals
    usdc
    silv := g.silv }

end DominionSilver
