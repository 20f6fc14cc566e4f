import DominionSilver.Spec.Propose

/-! The twelve execute instructions (`admin/execute.rs`) and the cancel
(`admin/timelock.rs`). -/

namespace DominionSilver

open Checked Bytes Tokens

/-- The checks that the execute handlers share, up to and with the delay. -/
def openTimelock (k : TimelockAction) (nonce : UInt64) (now : ℤ) (admin rentRecipient : Pubkey)
    (w : World) : Result TimelockQueueAccount := do
  requireAdmin admin w
  let tl ← existing (w.timelocks.lookup nonce)
  require (tl.cancelled = false) .timelockActionCancelled
  require (tl.executedAt = none) .timelockActionAlreadyExecuted
  constrain (rentRecipient = tl.rentPayer) .address
  require (tl.nonce = nonce) .nonceMismatch
  require (tl.actionDisc = k.disc) .nonceMismatch
  require (w.config.pendingNonce k = some nonce) .nonceMismatch
  require (tl.executableAt ≤ now) .timelockNotElapsed
  return tl

/-- Empty the slot, free the place in the queue and close the account. -/
def closeTimelock (k : TimelockAction) (nonce : UInt64) (w : World) : World :=
  { w with
    config := { w.config with
      pendingNonce := Function.update w.config.pendingNonce k none
      activeProposalCount := saturatingSub w.config.activeProposalCount 1 }
    timelocks := w.timelocks.erase nonce }

/-- What the execute handlers share: opening the account, the handler's own effect on what the
account's `action_data` says, and closing. -/
def execute (k : TimelockAction) (effect : List UInt8 → World → Result World) (nonce : UInt64)
    (now : ℤ) (admin rentRecipient : Pubkey) (w : World) : Result World := do
  let tl ← openTimelock k nonce now admin rentRecipient w
  let w' ← effect tl.actionData w
  return closeTimelock k nonce w'

/-- The first bytes of `action_data` as a word (`decode_u16`, `decode_u64`). -/
def decodeWord (α : Type) [Word α] (data : List UInt8) : Result α :=
  okOr (fromLEBytes α data) (.dominion .malformedActionData)

/-- `try_from_slice` of the whole `action_data`. -/
def decodeArgs (α : Type) [Codec α] (data : List UInt8) : Result α :=
  okOr (Codec.tryFromSlice α data) (.dominion .serializationFailure)

def premiumMintEffect (data : List UInt8) (w : World) : Result World := do
  let newBps ← decodeWord UInt16 data
  require (newBps ≤ PREMIUM_BPS_MINT_CEILING) .premiumTooHigh
  require (PREMIUM_BPS_COMBINED_FLOOR.toNat ≤ newBps.toNat + w.config.premiumBpsRedeem.toNat)
    .premiumSpreadTooLow
  let config := { w.config with premiumBpsMint := newBps }
  config.assertPremiumWithinBounds
  return { w with config := { config with mintPausedUntil := 0 } }

def premiumRedeemEffect (data : List UInt8) (w : World) : Result World := do
  let newBps ← decodeWord UInt16 data
  require (newBps ≤ PREMIUM_BPS_REDEEM_CEILING) .premiumTooHigh
  require (PREMIUM_BPS_COMBINED_FLOOR.toNat ≤ w.config.premiumBpsMint.toNat + newBps.toNat)
    .premiumSpreadTooLow
  let config := { w.config with premiumBpsRedeem := newBps }
  config.assertPremiumWithinBounds
  return { w with config }

/-- `recipientAta` is the token account the caller supplies. -/
def withdrawUsdcEffect (rt : Runtime) (recipientAta : Pubkey) (data : List UInt8) (w : World) :
    Result World := do
  let treasury ← existing (w.usdc.lookup w.config.usdcTreasury)
  let ata ← tokenAccount w.usdc recipientAta w.config.usdcMint
  require (w.config.paused = false) .withdrawBlockedWhilePaused
  require (8 + 32 ≤ data.length) .malformedActionData
  let amount ← decodeWord UInt64 data
  let recipient ← orOverflow (Bytes32.ofBytes? ((data.drop 8).take 32))
  require (0 < amount) .zeroAmount
  require (ata.owner = recipient) .withdrawRecipientMismatch
  require (amount ≤ treasury.amount) .insufficientTreasury
  let treasuryPost ← orOverflow (checkedSub treasury.amount amount)
  require (w.config.treasuryMinFloatUsdc ≤ treasuryPost) .floorBreached
  let usdc ← cpi (rt.tokens.transferChecked w.usdc w.config.usdcMint w.config.usdcTreasury
    recipientAta rt.treasuryPda amount w.usdcDecimals)
  return { w with usdc }

def complianceModeEffect (data : List UInt8) (w : World) : Result World := do
  let newValue : Bool := data.headD 0 ≠ 0
  require (newValue ≠ w.config.complianceMode) .complianceModeUnchanged
  return { w with config := { w.config with complianceMode := newValue, paused := true } }

/-- The bounds on the prices are checked on what the config then holds, given or kept. -/
def oracleGuardsEffect (data : List UInt8) (w : World) : Result World := do
  let g ← decodeArgs OracleGuardsArgs data
  requireSome g.staleness StalenessInBounds .aboveMaximum
  requireSome g.confBps ConfBpsInBounds .aboveMaximum
  requireSome g.minPriceScaled MinPriceInBounds .priceOutOfBounds
  let minPrice := g.minPriceScaled.getD w.config.minPriceUsdScaled
  let maxPrice := g.maxPriceScaled.getD w.config.maxPriceUsdScaled
  require (MaxPriceInBounds maxPrice) .priceOutOfBounds
  require (minPrice = 0 ∨ minPrice < maxPrice) .priceOutOfBounds
  requireSome g.maxDeltaBps MaxDeltaBpsInBounds .aboveMaximum
  requireSome g.decaySeconds DecaySecondsInBounds .aboveMaximum
  requireSome g.dustFilterMinUsdc (· ≤ 1000000000000) .aboveMaximum
  requireSome g.minPublishers (MIN_PUBLISHERS_FLOOR_HARD ≤ ·) .lazerTooFewPublishers
  return { w with config := { w.config with
    maxStalenessSeconds := g.staleness.getD w.config.maxStalenessSeconds
    maxConfidenceBps := g.confBps.getD w.config.maxConfidenceBps
    minPriceUsdScaled := minPrice
    maxPriceUsdScaled := maxPrice
    maxPriceDeltaBps := g.maxDeltaBps.getD w.config.maxPriceDeltaBps
    priceDeltaDecaySeconds := g.decaySeconds.getD w.config.priceDeltaDecaySeconds
    priceUpdateMinAmountUsdc := g.dustFilterMinUsdc.getD w.config.priceUpdateMinAmountUsdc
    minPublishers := g.minPublishers.getD w.config.minPublishers
    paused := true } }

def redeemLimitsEffect (data : List UInt8) (w : World) : Result World := do
  require (w.config.paused = false) .paused
  let args ← decodeArgs RedeemLimitsArgs data
  args.validateCeilings
  return { w with config := args.writeTo w.config }

def treasuryMinFloatEffect (data : List UInt8) (w : World) : Result World := do
  let newFloatUsdc ← decodeWord UInt64 data
  require (newFloatUsdc ≤ TREASURY_FLOAT_CEILING_USDC) .aboveMaximum
  return { w with config := { w.config with treasuryMinFloatUsdc := newFloatUsdc } }

def adminTimelockEffect (data : List UInt8) (w : World) : Result World := do
  let newSeconds ← decodeWord UInt32 data
  require (ADMIN_TIMELOCK_MIN_SECONDS ≤ newSeconds) .timelockTooShort
  require (newSeconds ≤ ADMIN_TIMELOCK_MAX_SECONDS) .timelockTooLong
  return { w with config := { w.config with adminTimelockSeconds := newSeconds } }

def inventoryWalletEffect (data : List UInt8) (w : World) : Result World := do
  require (w.config.paused = false) .paused
  let newWallet ← okOr (Bytes32.ofBytes? data) (.dominion .malformedActionData)
  require (newWallet ≠ Bytes32.zero) .inventoryWalletNotSet
  require (newWallet ≠ w.config.inventoryWallet) .inventoryWalletUnchanged
  return { w with config := { w.config with inventoryWallet := newWallet } }

def publicMintEffect (data : List UInt8) (w : World) : Result World := do
  require (w.config.paused = false) .paused
  require (data ≠ []) .malformedActionData
  let newValue : Bool := data.headD 0 ≠ 0
  require (newValue = true) .publicMintOpenRequiresTimelock
  require (newValue ≠ w.config.publicMintEnabled) .publicMintUnchanged
  return { w with config := { w.config with publicMintEnabled := newValue } }

def pythFeedEffect (data : List UInt8) (w : World) : Result World := do
  let newFeedId ← decodeWord UInt32 data
  require (newFeedId ≠ 0) .invalidFeedId
  return { w with config := { w.config with pythLazerFeedId := newFeedId, paused := true } }

/-- `update_metadata_field`, skipped for a field that is not given. -/
def updateMetadataField (rt : Runtime) (field : Field) (value : Option String) (m : Mint Pubkey) :
    Result (Mint Pubkey) :=
  match value with
  | some v => cpi (rt.tokens.updateField m rt.silvMetadataAuthority field v)
  | none => .ok m

def metadataEffect (rt : Runtime) (data : List UInt8) (w : World) : Result World := do
  let args ← decodeArgs MetadataArgs data
  validateMetadataArgs args
  let m ← updateMetadataField rt .name args.name w.silvMint
  let m ← updateMetadataField rt .symbol args.symbol m
  let silvMint ← updateMetadataField rt .uri args.uri m
  return { w with silvMint }

def executeSetPremiumMintHandler := execute .setPremiumMint premiumMintEffect
def executeSetPremiumRedeemHandler := execute .setPremiumRedeem premiumRedeemEffect
def executeWithdrawUsdcHandler (rt : Runtime) (recipientAta : Pubkey) :=
  execute .withdrawUsdc (withdrawUsdcEffect rt recipientAta)
def executeSetComplianceModeHandler := execute .setComplianceMode complianceModeEffect
def executeSetOracleGuardsHandler := execute .setOracleGuards oracleGuardsEffect
def executeSetRedeemLimitsHandler := execute .setRedeemLimits redeemLimitsEffect
def executeSetTreasuryMinFloatHandler := execute .setTreasuryFloat treasuryMinFloatEffect
def executeSetAdminTimelockHandler := execute .setAdminTimelock adminTimelockEffect
def executeSetInventoryWalletHandler := execute .setInventoryWallet inventoryWalletEffect
def executeSetPublicMintHandler := execute .setPublicMint publicMintEffect
def executeSetPythFeedHandler := execute .setPythFeed pythFeedEffect
def executeUpdateMetadataHandler (rt : Runtime) := execute .updateMetadata (metadataEffect rt)

/-- The execute instruction of an action; only the withdrawal reads `recipientAta`. -/
def executeHandler (rt : Runtime) (recipientAta : Pubkey) :
    TimelockAction → UInt64 → ℤ → Pubkey → Pubkey → World → Result World
  | .setPremiumMint => executeSetPremiumMintHandler
  | .setPremiumRedeem => executeSetPremiumRedeemHandler
  | .withdrawUsdc => executeWithdrawUsdcHandler rt recipientAta
  | .setTreasuryFloat => executeSetTreasuryMinFloatHandler
  | .setOracleGuards => executeSetOracleGuardsHandler
  | .updateMetadata => executeUpdateMetadataHandler rt
  | .setComplianceMode => executeSetComplianceModeHandler
  | .setPythFeed => executeSetPythFeedHandler
  | .setAdminTimelock => executeSetAdminTimelockHandler
  | .setRedeemLimits => executeSetRedeemLimitsHandler
  | .setPublicMint => executeSetPublicMintHandler
  | .setInventoryWallet => executeSetInventoryWalletHandler

/-- The admin, or a guardian that may act. -/
def isAdminOrGuardian (c : ConfigAccount) (signer : Pubkey) (guardian : Option GuardianAccount) :
    Bool :=
  signer = c.admin || guardian.any (·.mayAct signer c.admin)

def shouldDisarm (slot : Option UInt64) (nonce : UInt64) : Bool := slot = some nonce

/-- The slot of a cancelled action, emptied where it holds the cancelled nonce. -/
def disarmIfMine (c : ConfigAccount) (k : TimelockAction) (nonce : UInt64) : ConfigAccount :=
  if shouldDisarm (c.pendingNonce k) nonce then
    if k = .setPremiumMint then { c.disarm k with mintPausedUntil := 0 } else c.disarm k
  else c

def cancelTimelockedHandler (nonce : UInt64) (suppliesGuardian : Bool)
    (signer rentRecipient : Pubkey) (w : World) : Result World := do
  let tl ← existing (w.timelocks.lookup nonce)
  require (tl.cancelled = false) .timelockActionCancelled
  require (tl.executedAt = none) .timelockActionAlreadyExecuted
  constrain (rentRecipient = tl.rentPayer) .address
  let guardian ← optionalAccount suppliesGuardian (w.guardians.lookup signer)
  require (isAdminOrGuardian w.config signer guardian = true) .unauthorized
  require (tl.nonce = nonce) .nonceMismatch
  let config := match TimelockAction.ofDisc? tl.actionDisc with
    | some k => disarmIfMine w.config k nonce
    | none => w.config
  return { w with
    config := { config with activeProposalCount := saturatingSub config.activeProposalCount 1 }
    timelocks := w.timelocks.erase nonce }

end DominionSilver
