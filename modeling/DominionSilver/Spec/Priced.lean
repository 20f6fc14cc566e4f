import DominionSilver.Spec.World

/-! The priced instructions `mint_silv` and `redeem_silv`, the pre-mint, the
deposit, and what they share: the oracle read (`oracle.rs`, `lazer_cpi.rs`) and
the checks on the SILV mint (`assertions.rs`). -/

namespace DominionSilver

open Checked Bytes Tokens

/-- The accounts and arguments of the verify call, as the caller supplies them. -/
structure LazerAccounts where
  lazerProgram : Pubkey
  executable : Bool
  storage : Pubkey
  storageData : List UInt8
  treasury : Pubkey
  feePayer : Pubkey
  instructionsSysvar : Pubkey
  systemProgram : Pubkey
  /-- What the funder can pay the fee from. -/
  funderLamports : UInt64
  request : LazerRequest

def verifyAndGetPayload (rt : Runtime) (a : LazerAccounts) : Result (List UInt8) := do
  require (a.request.messageData.length ≤ MAX_MESSAGE_DATA) .lazerMessageTooLarge
  require (a.lazerProgram = LAZER_PROGRAM_ID) .lazerWrongAccount
  require (a.storage = LAZER_STORAGE) .lazerWrongAccount
  require (a.instructionsSysvar = INSTRUCTIONS_SYSVAR) .lazerWrongAccount
  require (a.systemProgram = Bytes32.zero) .lazerWrongAccount
  require (a.executable = true) .lazerProgramNotExecutable
  require (a.feePayer = rt.lazerFeePayer) .lazerFeePayerMismatch
  let treasury ← readTreasury a.storageData
  require (a.treasury.bytes = treasury) .lazerWrongAccount
  let fee ← readFee a.storageData
  guardOr (fee ≤ a.funderLamports) .cpi
  let returned ← cpi (rt.verifyMessage a.request)
  let (prog, ret) ← okOr returned (.dominion .lazerReturnDataMissing)
  require (prog = LAZER_PROGRAM_ID) .lazerReturnDataWrongProgram
  parseVerifiedMessage ret

def mapParseErr : LazerError → DominionError
  | .wrongChannel => .lazerWrongChannel
  | .feedNotFound => .wrongOracleFeed
  | .payloadTooLarge => .lazerMessageTooLarge
  | _ => .lazerPayloadInvalid

def mapPolicyErr : LazerPolicyError → DominionError
  | .nonPositivePrice => .negativeOraclePrice
  | .confidenceMissing | .confidenceNonPositive | .confidenceTooWide => .oracleLowConfidence
  | .tooFewPublishers => .lazerTooFewPublishers
  | .carriedForward => .lazerCarriedForward
  | .nonMonotonic => .lazerReplayed
  | .stale | .futureTimestamp => .staleOracle
  | .exponentOutOfRange => .oracleScalingOutOfBounds
  | .overflow => .arithmeticOverflow
  | .priceOutOfBounds => .priceOutOfBounds

/-- `map_err`. -/
def mapErr {ε α : Type} (f : ε → DominionError) : Except ε α → Result α
  | .ok a => .ok a
  | .error e => .error (.dominion (f e))

@[simp] theorem mapErr_ok {ε α : Type} {f : ε → DominionError} {x : Except ε α} {a : α} :
    mapErr f x = .ok a ↔ x = .ok a := by
  cases x <;> simp [mapErr]

def policyParams (c : ConfigAccount) (now : ℤ) : LazerPolicyParams where
  maxStalenessUs := UInt64.ofNat (c.maxStalenessSeconds.toNat * 1000000)
  futureSkewUs := LAZER_FUTURE_SKEW_US
  maxConfidenceBps := c.maxConfidenceBps
  minPublishers := c.minPublishers
  minPriceScaled := c.minPriceUsdScaled.toNat
  maxPriceScaled := c.maxPriceUsdScaled.toNat
  nowUs := UInt64.ofNat (min (now.toNat * 1000000) (2 ^ 64 - 1))

def readSilverPriceLazer (rt : Runtime) (a : LazerAccounts) (c : ConfigAccount) (now : ℤ) :
    Result LazerPriceResult := do
  let payload ← verifyAndGetPayload rt a
  let lp ← mapErr mapParseErr (extractFeedPrice payload c.pythLazerFeedId LAZER_CHANNEL_ID)
  mapErr mapPolicyErr (priceFromLazer lp (policyParams c now) c.lastUsedFeedUpdateTimestampUs)

def checkPriceDelta (c : ConfigAccount) (newPrice : ℕ) (now : ℤ) : Result Unit :=
  if c.lastRecordedPriceScaled = 0 then .ok ()
  else if (c.priceDeltaDecaySeconds.toNat : ℤ) < saturatingI64 (now - c.lastPriceUpdateAt) then
    .ok ()
  else do
    let last := c.lastRecordedPriceScaled
    let delta := if last ≤ newPrice then newPrice - last else last - newPrice
    let lhs ← orOverflow (checkedU128 (delta * 10000))
    let rhs ← orOverflow (checkedU128 (last * c.maxPriceDeltaBps.toNat))
    require (lhs ≤ rhs) .priceDeltaExceeded

def maybeUpdateLastPrice (c : ConfigAccount) (newPrice : ℕ) (amountUsdcEquiv : UInt64) (now : ℤ) :
    ConfigAccount :=
  if c.lastRecordedPriceScaled = 0 ∨ c.priceUpdateMinAmountUsdc ≤ amountUsdcEquiv then
    { c with lastRecordedPriceScaled := newPrice, lastPriceUpdateAt := now }
  else c

def assertSilvMintInvariants (rt : Runtime) (m : Mint Pubkey) (c : ConfigAccount) :
    Result Unit := do
  require (m.mintAuthority = some rt.silvMintAuthority) .silvMintAuthorityMismatch
  require (m.freezeAuthority = some c.freezeAuthorityExpected) .silvFreezeAuthorityMismatch
  let delegate ← okOr (permanentDelegate? m) (.dominion .permanentDelegateMismatch)
  require (delegate.getD Bytes32.zero = c.permanentDelegateExpected) .permanentDelegateMismatch
  require (¬ .transferHook ∈ m.extensions) .transferHookUnexpected
  require (¬ .transferFeeConfig ∈ m.extensions) .transferFeeUnexpected
  require (∀ e ∈ m.extensions, allowedExtension e = true) .disallowedMintExtension

/-- The accounts of a priced instruction that its caller chooses. -/
structure PricedAccounts where
  suppliesFeeExempt : Bool
  suppliesKyc : Bool
  lazer : LazerAccounts

/-- The share of the premium that goes to the fee vault. -/
def feeRouted (c : ConfigAccount) (feeUsdc : UInt64) : UInt64 :=
  if c.feeRoutingDisabled then 0 else feeUsdc

structure MintQuote where
  feeUsdc : UInt64
  netUsdc : UInt64
  silvOut : UInt64
  feeRouted : UInt64
  toTreasury : UInt64
deriving DecidableEq

/-- The premium off the top, the SILV for the rest, and the two legs (steps 7 to 10). -/
def quoteMint (c : ConfigAccount) (premiumBps : UInt16) (oraclePrice : ℕ) (supply : UInt64)
    (amountUsdc minSilvOut : UInt64) : Result MintQuote := do
  let feeUsdc ← feeFromAmount amountUsdc premiumBps
  let netUsdc ← orOverflow (checkedSub amountUsdc feeUsdc)
  require (0 < netUsdc) .zeroAmount
  let silvOut ← mintSilvOut netUsdc oraclePrice
  require (0 < silvOut) .zeroAmount
  require (minSilvOut ≤ silvOut) .slippageExceeded
  let supplyPost ← orOverflow (checkedAdd supply silvOut)
  require (supplyPost ≤ c.maxSilvSupply) .supplyCapExceeded
  let routed := feeRouted c feeUsdc
  let toTreasury ← orOverflow (checkedSub amountUsdc routed)
  return ⟨feeUsdc, netUsdc, silvOut, routed, toTreasury⟩

/-- A transfer that is skipped for an amount of zero. -/
def transferIfPositive (rt : Runtime) (w : World) (usdc : Ledger Pubkey)
    (src dst authority : Pubkey) (amount : UInt64) : Result (Ledger Pubkey) :=
  if 0 < amount then
    cpi (rt.tokens.transferChecked usdc w.config.usdcMint src dst authority amount w.usdcDecimals)
  else .ok usdc

def mintSilvHandler (rt : Runtime) (amountUsdc minSilvOut : UInt64) (accounts : PricedAccounts)
    (now : ℤ) (user : Pubkey) (w : World) : Result World := do
  let _ ← existing (w.usdc.lookup w.config.usdcTreasury)
  let _ ← associated rt w.usdc rt.feeVaultPda w.config.usdcMint
  let _ ← associated rt w.usdc user w.config.usdcMint
  let silv ← initAssociated rt w.silv user w.config.silvMint
  let feeExempt ← optionalAccount accounts.suppliesFeeExempt (w.feeExempts.lookup user)
  let kyc ← optionalAccount accounts.suppliesKyc (w.kycs.lookup user)
  require (w.config.paused = false) .paused
  require (w.config.publicMintEnabled = true) .publicMintDisabled
  require (w.config.mintPausedUntil ≤ now) .mintPaused
  require (w.config.pendingNonce .setPremiumMint = none) .mintPaused
  enforceKyc w.config.kycScopeFlags .mint kyc user
  require (0 < amountUsdc) .zeroAmount
  require (w.config.minOperationUsdc ≤ amountUsdc) .operationBelowMinimum
  let price ← readSilverPriceLazer rt accounts.lazer w.config now
  let config := { w.config with lastUsedFeedUpdateTimestampUs := price.feedUpdateTimestampUs }
  checkPriceDelta config price.normalizedPriceScaled now
  assertSilvMintInvariants rt w.silvMint config
  let premiumBps := effectivePremiumBps config.premiumBpsMint feeExempt user .mint now
  let q ← quoteMint config premiumBps price.normalizedPriceScaled w.silvMint.supply amountUsdc
    minSilvOut
  let config := maybeUpdateLastPrice config price.normalizedPriceScaled amountUsdc now
  let userAta := rt.ata user w.config.usdcMint
  let usdc ← cpi (rt.tokens.transferChecked w.usdc w.config.usdcMint userAta w.config.usdcTreasury
    user q.toTreasury w.usdcDecimals)
  let usdc ← transferIfPositive rt w usdc userAta (w.feeVault rt) user q.feeRouted
  let (silvMint, silv) ← cpi (rt.tokens.mintTo w.silvMint silv (rt.ata user w.config.silvMint)
    rt.silvMintAuthority q.silvOut)
  return { w with config, usdc, silvMint, silv }

structure RedeemQuote where
  grossUsdc : UInt64
  feeUsdc : UInt64
  toUserUsdc : UInt64
  feeRouted : UInt64
  totalOut : UInt64
  /-- The stored window once this redemption is in it. -/
  windowStart : ℤ
  usedUsdc : UInt64
  usedPrevUsdc : UInt64
deriving DecidableEq

/-- The gross value, the premium off it, the window budget and the solvency of the treasury
(steps 4 to 8). -/
def quoteRedeem (c : ConfigAccount) (premiumBps : UInt16) (oraclePrice : ℕ)
    (treasuryBalance : UInt64) (now : ℤ) (amountSilv minUsdcOut : UInt64) : Result RedeemQuote := do
  let grossUsdc ← silvToUsdcAtOracle amountSilv oraclePrice
  require (0 < grossUsdc) .zeroAmount
  require (c.minOperationUsdc ≤ grossUsdc) .operationBelowMinimum
  let feeUsdc ← feeFromAmount grossUsdc premiumBps
  let toUserUsdc ← orOverflow (checkedSub grossUsdc feeUsdc)
  require (0 < toUserUsdc) .zeroAmount
  require (minUsdcOut ≤ toUserUsdc) .slippageExceeded
  let win := rollWindow now c.instantWindowStart c.instantRedeemWindowSeconds c.instantUsedUsdc
    c.instantUsedPrevUsdc
  let routed := feeRouted c feeUsdc
  let totalOut ← orOverflow (checkedAdd toUserUsdc routed)
  let newUsed ← orOverflow (checkedAdd win.effectiveUsed totalOut)
  require (newUsed ≤ c.instantRedeemBudgetUsdc) .redeemLimitExceeded
  require (totalOut ≤ treasuryBalance) .insufficientTreasury
  let usedUsdc ← orOverflow (checkedAdd win.rolledCurrent totalOut)
  return ⟨grossUsdc, feeUsdc, toUserUsdc, routed, totalOut, win.newWindowStart, usedUsdc,
    win.rolledPrev⟩

def redeemSilvHandler (rt : Runtime) (amountSilv minUsdcOut : UInt64) (accounts : PricedAccounts)
    (now : ℤ) (user : Pubkey) (w : World) : Result World := do
  let treasury ← existing (w.usdc.lookup w.config.usdcTreasury)
  let _ ← associated rt w.usdc rt.feeVaultPda w.config.usdcMint
  let usdc ← initAssociated rt w.usdc user w.config.usdcMint
  let _ ← associated rt w.silv user w.config.silvMint
  let feeExempt ← optionalAccount accounts.suppliesFeeExempt (w.feeExempts.lookup user)
  let kyc ← optionalAccount accounts.suppliesKyc (w.kycs.lookup user)
  require (w.config.paused = false) .paused
  require (w.config.redemptionsEnabled = true) .redemptionsDisabled
  enforceKyc w.config.kycScopeFlags .redeem kyc user
  require (0 < amountSilv) .zeroAmount
  let price ← readSilverPriceLazer rt accounts.lazer w.config now
  let config := { w.config with lastUsedFeedUpdateTimestampUs := price.feedUpdateTimestampUs }
  checkPriceDelta config price.normalizedPriceScaled now
  assertSilvMintInvariants rt w.silvMint config
  let premiumBps := effectivePremiumBps config.premiumBpsRedeem feeExempt user .redeem now
  let q ← quoteRedeem config premiumBps price.normalizedPriceScaled treasury.amount now amountSilv
    minUsdcOut
  let config := maybeUpdateLastPrice
    { config with
      instantWindowStart := q.windowStart, instantUsedPrevUsdc := q.usedPrevUsdc,
      instantUsedUsdc := q.usedUsdc }
    price.normalizedPriceScaled q.grossUsdc now
  let (silvMint, silv) ← cpi (rt.tokens.burn w.silvMint w.silv (rt.ata user w.config.silvMint) user
    amountSilv)
  let usdc ← cpi (rt.tokens.transferChecked usdc w.config.usdcMint w.config.usdcTreasury
    (rt.ata user w.config.usdcMint) rt.treasuryPda q.toUserUsdc w.usdcDecimals)
  let usdc ← transferIfPositive rt w usdc w.config.usdcTreasury (w.feeVault rt) rt.treasuryPda
    q.feeRouted
  return { w with config, usdc, silvMint, silv }

/-- `inventorySilvAta` is the token account the caller supplies. -/
def premintHandler (rt : Runtime) (amount : UInt64) (inventorySilvAta admin : Pubkey) (w : World) :
    Result World := do
  requireAdmin admin w
  let ata ← tokenAccount w.silv inventorySilvAta w.config.silvMint
  require (0 < amount) .zeroAmount
  require (w.config.paused = false) .paused
  require (w.config.inventoryWallet ≠ Bytes32.zero) .inventoryWalletNotSet
  require (ata.owner = w.config.inventoryWallet) .invalidInventoryDestination
  assertSilvMintInvariants rt w.silvMint w.config
  let supplyPost ← orOverflow (checkedAdd w.silvMint.supply amount)
  require (supplyPost ≤ w.config.maxSilvSupply) .supplyCapExceeded
  let (silvMint, silv) ← cpi (rt.tokens.mintTo w.silvMint w.silv inventorySilvAta
    rt.silvMintAuthority amount)
  return { w with silvMint, silv }

/-- `userUsdcAta` is any USDC account the user may move funds from. -/
def depositUsdcHandler (rt : Runtime) (amount : UInt64) (userUsdcAta user : Pubkey) (w : World) :
    Result World := do
  let treasury ← existing (w.usdc.lookup w.config.usdcTreasury)
  let _ ← tokenAccount w.usdc userUsdcAta w.config.usdcMint
  require (MIN_DEPOSIT_USDC ≤ amount) .belowMinimum
  let usdc ← cpi (rt.tokens.transferChecked w.usdc w.config.usdcMint userUsdcAta
    w.config.usdcTreasury user amount w.usdcDecimals)
  let treasuryPost ← existing (usdc.lookup w.config.usdcTreasury)
  require (0 < saturatingSub treasuryPost.amount treasury.amount) .zeroAmount
  return { w with usdc }

end DominionSilver
