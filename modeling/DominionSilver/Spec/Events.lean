import DominionSilver.Library.Journal
import DominionSilver.Spec.Main

/-! The events that the instructions emit (`events.rs`), each at the end of its
handler, and the journal that they leave. -/

namespace DominionSilver

open Checked Bytes Tokens

/-- The events that are emitted. `by_` and `from_` are the source's `by` and `from`. -/
inductive ProgramEvent
  | mintEvent (user : Pubkey) (amountUsdc amountSilv : UInt64) (priceUsedScaled : ℕ)
      (premiumBpsUsed : UInt16) (feeUsdc : UInt64) (timestamp : ℤ)
  | premintEvent (inventory : Pubkey) (amount supplyPost : UInt64) (timestamp : ℤ) (by_ : Pubkey)
  | redeemEvent (user : Pubkey) (amountSilv amountUsdc : UInt64) (priceUsedScaled : ℕ)
      (premiumBpsUsed : UInt16) (feeUsdc : UInt64) (timestamp : ℤ)
  | feeExemptSet (wallet : Pubkey) (flags : UInt8) (expiresAt : ℤ) (by_ : Pubkey) (timestamp : ℤ)
  | feeExemptRemoved (wallet : Pubkey) (previousFlags : UInt8) (by_ : Pubkey) (timestamp : ℤ)
  | feeRoutingChanged (enabled : Bool) (by_ : Pubkey) (timestamp : ℤ)
  | feesWithdrawn (destination : Pubkey) (amount remaining : UInt64) (by_ : Pubkey) (timestamp : ℤ)
  | kycScopeChanged (oldFlags newFlags : UInt8) (by_ : Pubkey) (timestamp : ℤ)
  | kycAttested (wallet attestor : Pubkey) (reference : Bytes32) (timestamp : ℤ)
  | kycRevoked (wallet by_ : Pubkey) (timestamp : ℤ)
  | kycOperatorChanged (oldOperator newOperator by_ : Pubkey) (timestamp : ℤ)
  | adminActionProposed (nonce : UInt64) (actionDisc : UInt8) (executableAt : ℤ)
      (proposer : Pubkey)
  | adminActionExecuted (nonce : UInt64) (actionDisc : UInt8) (executor : Pubkey)
  | adminActionCancelled (nonce : UInt64) (cancelledBy : Pubkey)
  | paused (by_ : Pubkey) (timestamp : ℤ)
  | unpaused (timestamp : ℤ)
  | treasuryWithdraw (amount : UInt64) (recipient : Pubkey) (timestamp : ℤ)
  | treasuryDeposit (amount : UInt64) (from_ : Pubkey) (timestamp : ℤ)
  | adminTransferProposed (current proposed : Pubkey) (eta expiresAt : ℤ)
  | adminTransferAccepted (old new : Pubkey)
  | guardianAdded (guardian : Pubkey)
  | guardianRemoved (guardian : Pubkey) (cooldownUntil : ℤ)
  | complianceModeChanged (newValue : Bool)
  | metadataUpdated (newName newSymbol newUri : Option String)
  | mintPausedUntilSet (until_ : ℤ)
  | guardianRemovalScheduled (guardian : Pubkey) (effectiveAt : ℤ)
  | guardianRemovalCancelled (guardian cancelledBy : Pubkey)
  | maxSupplyChanged (oldMax newMax liveSupply : UInt64) (by_ : Pubkey)
  | redemptionsEnabledChanged (oldEnabled newEnabled : Bool) (by_ : Pubkey)
  | redeemLimitsTightened (instantRedeemBudgetUsdc : UInt64) (instantRedeemWindowSeconds : UInt32)
      (largeRedeemThresholdUsdc : UInt64) (redeemQueueDelaySeconds : UInt32) (by_ : Pubkey)
  | inventoryWalletChanged (oldWallet newWallet by_ : Pubkey)
  | adminTransferCancelled (cancelledPendingAdmin : Option Pubkey) (by_ : Pubkey)
  | publicMintEnabledChanged (oldEnabled newEnabled : Bool) (by_ : Pubkey)
  | minOperationChanged (oldMinUsdc newMinUsdc : UInt64) (by_ : Pubkey)
deriving DecidableEq

section Priced

/-- `emit!(MintEvent { .. })`, with the price and the quote that the handler works with. -/
def mintEvents (rt : Runtime) (amountUsdc minSilvOut : UInt64) (accounts : PricedAccounts)
    (now : ℤ) (user : Pubkey) (w : World) : Result (List ProgramEvent) := do
  let feeExempt ← optionalAccount accounts.suppliesFeeExempt (w.feeExempts.lookup user)
  let price ← readSilverPriceLazer rt accounts.lazer w.config now
  let premiumBps := effectivePremiumBps w.config.premiumBpsMint feeExempt user .mint now
  let q ← quoteMint w.config premiumBps price.normalizedPriceScaled w.silvMint.supply amountUsdc
    minSilvOut
  return [.mintEvent user amountUsdc q.silvOut price.normalizedPriceScaled premiumBps q.feeRouted
    now]

def redeemEvents (rt : Runtime) (amountSilv minUsdcOut : UInt64) (accounts : PricedAccounts)
    (now : ℤ) (user : Pubkey) (w : World) : Result (List ProgramEvent) := do
  let treasury ← existing (w.usdc.lookup w.config.usdcTreasury)
  let feeExempt ← optionalAccount accounts.suppliesFeeExempt (w.feeExempts.lookup user)
  let price ← readSilverPriceLazer rt accounts.lazer w.config now
  let premiumBps := effectivePremiumBps w.config.premiumBpsRedeem feeExempt user .redeem now
  let q ← quoteRedeem w.config premiumBps price.normalizedPriceScaled treasury.amount now amountSilv
    minUsdcOut
  return [.redeemEvent user amountSilv q.toUserUsdc price.normalizedPriceScaled premiumBps
    q.feeRouted now]

/-- The amount of a deposit is what the treasury gained. -/
def depositEvents (now : ℤ) (user : Pubkey) (w w' : World) : Result (List ProgramEvent) := do
  let pre ← existing (w.usdc.lookup w.config.usdcTreasury)
  let post ← existing (w'.usdc.lookup w.config.usdcTreasury)
  return [.treasuryDeposit (saturatingSub post.amount pre.amount) user now]

def premintEvents (amount : UInt64) (now : ℤ) (admin : Pubkey) (w : World) :
    Result (List ProgramEvent) := do
  let supplyPost ← orOverflow (checkedAdd w.silvMint.supply amount)
  return [.premintEvent w.config.inventoryWallet amount supplyPost now admin]

end Priced

section Admin

def removeFeeExemptEvents (wallet : Pubkey) (now : ℤ) (admin : Pubkey) (w : World) :
    Result (List ProgramEvent) := do
  let acc ← existing (w.feeExempts.lookup wallet)
  return [.feeExemptRemoved wallet acc.flags admin now]

/-- The destination is the owner of the token account. -/
def withdrawFeesEvents (rt : Runtime) (amount : UInt64) (destination : Pubkey) (now : ℤ)
    (admin : Pubkey) (w : World) : Result (List ProgramEvent) := do
  let feeVault ← associated rt w.usdc rt.feeVaultPda w.config.usdcMint
  let dest ← tokenAccount w.usdc destination w.config.usdcMint
  return [.feesWithdrawn dest.owner amount (saturatingSub feeVault.amount amount) admin now]

def revokeKycEvents (wallet : Pubkey) (allowDisarm : Bool) (now : ℤ) (signer : Pubkey)
    (w : World) : Result (List ProgramEvent) := do
  let outcome ← resolveRevocation w.config.kycScopeFlags w.config.kycAttestationCount
    (signer = w.config.admin) allowDisarm
  return (if outcome.disarmed then
      [.kycScopeChanged w.config.kycScopeFlags outcome.scopeAfter signer now] else []) ++
    [.kycRevoked wallet signer now]

def redemptionsSwitch (o : Option Bool) (admin : Pubkey) (w : World) : List ProgramEvent :=
  match o with
  | some v => [.redemptionsEnabledChanged w.config.redemptionsEnabled v admin]
  | none => []

/-- What the limits are once they are tightened, whatever the arguments gave. -/
def emergencyTightenEvents (args : RedeemLimitsArgs) (admin : Pubkey) (w : World) :
    List ProgramEvent :=
  let config := args.writeTo w.config
  redemptionsSwitch args.redemptionsEnabled admin w ++
    [.redeemLimitsTightened config.instantRedeemBudgetUsdc config.instantRedeemWindowSeconds
      config.largeRedeemThresholdUsdc config.redeemQueueDelaySeconds admin]

/-- The guardian's account as the instruction leaves it. -/
def guardianEvents (k : Pubkey) (event : GuardianAccount → ProgramEvent) (w' : World) :
    Result (List ProgramEvent) := do
  let g ← existing (w'.guardians.lookup k)
  return [event g]

/-- The account is that of the new proposal. -/
def proposeEvents (change : Change) (admin : Pubkey) (w w' : World) :
    Result (List ProgramEvent) := do
  let nonce := w.config.nextTimelockNonce
  let tl ← existing (w'.timelocks.lookup nonce)
  let proposed : ProgramEvent := .adminActionProposed nonce tl.actionDisc tl.executableAt admin
  match change with
  | .premiumMint _ => return [proposed, .mintPausedUntilSet tl.executableAt]
  | _ => return [proposed]

end Admin

section Execute

/-- A change that pauses says so where the program was running. -/
def autoPause (now : ℤ) (admin : Pubkey) (w : World) : List ProgramEvent :=
  if w.config.paused then [] else [.paused admin now]

def withdrawUsdcEvents (data : List UInt8) (executed : ProgramEvent) (now : ℤ) :
    Result (List ProgramEvent) := do
  let amount ← decodeWord UInt64 data
  let recipient ← orOverflow (Bytes32.ofBytes? ((data.drop 8).take 32))
  return [executed, .treasuryWithdraw amount recipient now]

def redeemLimitsEvents (data : List UInt8) (executed : ProgramEvent) (admin : Pubkey)
    (w : World) : Result (List ProgramEvent) := do
  let args ← decodeArgs RedeemLimitsArgs data
  return redemptionsSwitch args.redemptionsEnabled admin w ++ [executed]

def inventoryWalletEvents (data : List UInt8) (executed : ProgramEvent) (admin : Pubkey)
    (w : World) : Result (List ProgramEvent) := do
  let newWallet ← okOr (Bytes32.ofBytes? data) (.dominion .malformedActionData)
  return [.inventoryWalletChanged w.config.inventoryWallet newWallet admin, executed]

def metadataEvents (data : List UInt8) (executed : ProgramEvent) : Result (List ProgramEvent) := do
  let args ← decodeArgs MetadataArgs data
  return [.metadataUpdated args.name args.symbol args.uri, executed]

/-- The events of an execute handler, in the order in which it emits them. -/
def executeEvents (k : TimelockAction) (nonce : UInt64) (now : ℤ) (admin : Pubkey) (w : World) :
    Result (List ProgramEvent) := do
  let tl ← existing (w.timelocks.lookup nonce)
  let data := tl.actionData
  let executed : ProgramEvent := .adminActionExecuted nonce tl.actionDisc admin
  match k with
  | .setPremiumMint | .setPremiumRedeem | .setTreasuryFloat | .setAdminTimelock =>
      return [executed]
  | .withdrawUsdc => withdrawUsdcEvents data executed now
  | .setOracleGuards | .setPythFeed => return autoPause now admin w ++ [executed]
  | .updateMetadata => metadataEvents data executed
  | .setComplianceMode =>
      return autoPause now admin w ++ [.complianceModeChanged (data.headD 0 ≠ 0), executed]
  | .setRedeemLimits => redeemLimitsEvents data executed admin w
  | .setPublicMint =>
      let newValue : Bool := data.headD 0 ≠ 0
      return [.publicMintEnabledChanged (!newValue) newValue admin, executed]
  | .setInventoryWallet => inventoryWalletEvents data executed admin w

end Execute

/-- What an instruction emits on its way from `w` to `w'`. -/
def emitted (rt : Runtime) (now : ℤ) (signer : Pubkey) (w w' : World) :
    Instruction → Result (List ProgramEvent)
  | .initializeAgain => .ok []
  | .mintSilv amountUsdc minSilvOut accounts =>
      mintEvents rt amountUsdc minSilvOut accounts now signer w
  | .redeemSilv amountSilv minUsdcOut accounts =>
      redeemEvents rt amountSilv minUsdcOut accounts now signer w
  | .depositUsdc _ _ => depositEvents now signer w w'
  | .setFeeExempt wallet flags expiresAt => .ok [.feeExemptSet wallet flags expiresAt signer now]
  | .removeFeeExempt wallet => removeFeeExemptEvents wallet now signer w
  | .withdrawFees amount destination => withdrawFeesEvents rt amount destination now signer w
  | .setFeeRoutingEnabled enabled => .ok [.feeRoutingChanged enabled signer now]
  | .setKycOperator operator => .ok [.kycOperatorChanged w.config.kycOperator operator signer now]
  | .setKycScope flags => .ok [.kycScopeChanged w.config.kycScopeFlags flags signer now]
  | .attestKyc wallet reference => .ok [.kycAttested wallet signer reference now]
  | .revokeKyc wallet allowDisarm => revokeKycEvents wallet allowDisarm now signer w
  | .pause _ => .ok [.paused signer now]
  | .unpause _ _ => .ok [.unpaused now]
  | .setMaxSilvSupply newMax =>
      .ok [.maxSupplyChanged w.config.maxSilvSupply newMax w.silvMint.supply signer]
  | .setPublicMintEnabled enabled =>
      .ok [.publicMintEnabledChanged w.config.publicMintEnabled enabled signer]
  | .setRedemptionsEnabled enabled =>
      .ok [.redemptionsEnabledChanged w.config.redemptionsEnabled enabled signer]
  | .setMinOperationUsdc newMinUsdc =>
      .ok [.minOperationChanged w.config.minOperationUsdc newMinUsdc signer]
  | .emergencyTightenRedeemLimits args => .ok (emergencyTightenEvents args signer w)
  | .adminPremint amount _ => premintEvents amount now signer w
  | .addGuardian k => .ok [.guardianAdded k]
  | .removeGuardian k =>
      guardianEvents k (fun g => .guardianRemovalScheduled k g.pendingRemovalAt) w'
  | .finalizeGuardianRemoval k => guardianEvents k (fun g => .guardianRemoved k g.cooldownUntil) w'
  | .cancelGuardianRemoval k => .ok [.guardianRemovalCancelled k signer]
  | .proposeAdminTransfer newAdmin => .ok [.adminTransferProposed w.config.admin newAdmin
      w'.config.pendingAdminEta w'.config.pendingAdminExpiresAt]
  | .acceptAdminTransfer => .ok [.adminTransferAccepted w.config.admin w'.config.admin]
  | .cancelAdminTransfer _ => .ok [.adminTransferCancelled w.config.pendingAdmin signer]
  | .cancelTimelockedAction nonce _ _ => .ok [.adminActionCancelled nonce signer]
  | .propose change => proposeEvents change signer w w'
  | .execute action nonce _ _ => executeEvents action nonce now signer w

/-- An instruction with its events. -/
def execLogged (rt : Runtime) (c : Call) (w : World) : Result (World × List ProgramEvent) := do
  let w' ← exec rt c w
  let events ← emitted rt c.now c.signer w w' c.ix
  return (w', events)

/-- The events of a step. Nobody else can emit in the program's name. -/
def eventsAt (rt : Runtime) (r : Entry) : List ProgramEvent :=
  match r.event with
  | .call c => (emitted rt c.now c.signer r.pre r.post c.ix).toOption.getD []
  | .external => []

end DominionSilver
