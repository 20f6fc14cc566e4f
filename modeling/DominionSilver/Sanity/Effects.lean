import DominionSilver.Sanity.Applied

/-! One constructor for each instruction: what it finds when it succeeds, and
the state it leaves, written as an update of the state before. -/

namespace DominionSilver

open Checked Bytes Tokens

/-- The reference price and its time, once an operation of `amount` at `price` is through. -/
def recordedPrice (c : ConfigAccount) (price : ℕ) (amount : UInt64) (now : ℤ) : ℕ × ℤ :=
  if c.lastRecordedPriceScaled = 0 ∨ c.priceUpdateMinAmountUsdc ≤ amount then (price, now)
  else (c.lastRecordedPriceScaled, c.lastPriceUpdateAt)

/-- What `mint_silv` finds, and the values it stores. -/
structure Minted (rt : Runtime) (amountUsdc minSilvOut : UInt64) (accounts : PricedAccounts)
    (now : ℤ) (user : Pubkey) (w : World) (price : LazerPriceResult) (q : MintQuote)
    (lastPrice : ℕ) (lastAt : ℤ) (usdc : Ledger Pubkey) (silvMint : Mint Pubkey)
    (silv : Ledger Pubkey) : Prop where
  treasury : ∃ a, w.usdc.lookup w.config.usdcTreasury = some a
  feeVault : ∃ a, w.usdc.lookup (w.feeVault rt) = some a ∧ a.owner = rt.feeVaultPda
  source : ∃ a, w.usdc.lookup (rt.ata user w.config.usdcMint) = some a ∧ a.owner = user
  unpaused : w.config.paused = false
  opened : w.config.publicMintEnabled = true
  resumed : w.config.mintPausedUntil ≤ now
  noRepricing : w.config.pendingNonce .setPremiumMint = none
  kyc : ∃ kyc, optionalAccount accounts.suppliesKyc (w.kycs.lookup user) = .ok kyc ∧
    enforceKyc w.config.kycScopeFlags .mint kyc user = .ok ()
  positive : 0 < amountUsdc
  least : w.config.minOperationUsdc ≤ amountUsdc
  read : readSilverPriceLazer rt accounts.lazer w.config now = .ok price
  delta : checkPriceDelta w.config price.normalizedPriceScaled now = .ok ()
  mint : assertSilvMintInvariants rt w.silvMint w.config = .ok ()
  quote : ∃ exempt, optionalAccount accounts.suppliesFeeExempt (w.feeExempts.lookup user) =
      .ok exempt ∧
    quoteMint w.config (effectivePremiumBps w.config.premiumBpsMint exempt user .mint now)
      price.normalizedPriceScaled w.silvMint.supply amountUsdc minSilvOut = .ok q
  recorded : recordedPrice w.config price.normalizedPriceScaled amountUsdc now = (lastPrice, lastAt)
  paid : ∃ usdc₁, rt.tokens.transferChecked w.usdc w.config.usdcMint
      (rt.ata user w.config.usdcMint) w.config.usdcTreasury user q.toTreasury w.usdcDecimals =
        some usdc₁ ∧
    transferIfPositive rt w usdc₁ (rt.ata user w.config.usdcMint) (w.feeVault rt) user
      q.feeRouted = .ok usdc
  issued : ∃ silv₀, initAssociated rt w.silv user w.config.silvMint = .ok silv₀ ∧
    rt.tokens.mintTo w.silvMint silv₀ (rt.ata user w.config.silvMint) rt.silvMintAuthority
      q.silvOut = some (silvMint, silv)

structure Redeemed (rt : Runtime) (amountSilv minUsdcOut : UInt64) (accounts : PricedAccounts)
    (now : ℤ) (user : Pubkey) (w : World) (price : LazerPriceResult) (q : RedeemQuote)
    (lastPrice : ℕ) (lastAt : ℤ) (usdc : Ledger Pubkey) (silvMint : Mint Pubkey)
    (silv : Ledger Pubkey) : Prop where
  feeVault : ∃ a, w.usdc.lookup (w.feeVault rt) = some a ∧ a.owner = rt.feeVaultPda
  source : ∃ a, w.silv.lookup (rt.ata user w.config.silvMint) = some a ∧ a.owner = user
  unpaused : w.config.paused = false
  enabled : w.config.redemptionsEnabled = true
  kyc : ∃ kyc, optionalAccount accounts.suppliesKyc (w.kycs.lookup user) = .ok kyc ∧
    enforceKyc w.config.kycScopeFlags .redeem kyc user = .ok ()
  positive : 0 < amountSilv
  read : readSilverPriceLazer rt accounts.lazer w.config now = .ok price
  delta : checkPriceDelta w.config price.normalizedPriceScaled now = .ok ()
  mint : assertSilvMintInvariants rt w.silvMint w.config = .ok ()
  quote : ∃ exempt treasury,
    optionalAccount accounts.suppliesFeeExempt (w.feeExempts.lookup user) = .ok exempt ∧
    w.usdc.lookup w.config.usdcTreasury = some treasury ∧
    quoteRedeem w.config (effectivePremiumBps w.config.premiumBpsRedeem exempt user .redeem now)
      price.normalizedPriceScaled treasury.amount now amountSilv minUsdcOut = .ok q
  recorded : recordedPrice w.config price.normalizedPriceScaled q.grossUsdc now =
    (lastPrice, lastAt)
  burned : rt.tokens.burn w.silvMint w.silv (rt.ata user w.config.silvMint) user amountSilv =
    some (silvMint, silv)
  paid : ∃ usdc₀ usdc₁, initAssociated rt w.usdc user w.config.usdcMint = .ok usdc₀ ∧
    rt.tokens.transferChecked usdc₀ w.config.usdcMint w.config.usdcTreasury
      (rt.ata user w.config.usdcMint) rt.treasuryPda q.toUserUsdc w.usdcDecimals = some usdc₁ ∧
    transferIfPositive rt w usdc₁ w.config.usdcTreasury (w.feeVault rt) rt.treasuryPda
      q.feeRouted = .ok usdc

structure Swept (rt : Runtime) (amount : UInt64) (destination : Pubkey) (w : World)
    (usdc : Ledger Pubkey) : Prop where
  feeVault : ∃ a, w.usdc.lookup (w.feeVault rt) = some a ∧ a.owner = rt.feeVaultPda ∧
    amount ≤ a.amount
  dest : ∃ a, w.usdc.lookup destination = some a ∧ a.mint = w.config.usdcMint ∧
    a.owner ≠ rt.feeVaultPda
  float : ∃ a, w.usdc.lookup w.config.usdcTreasury = some a ∧
    w.config.treasuryMinFloatUsdc ≤ a.amount
  unpaused : w.config.paused = false
  positive : 0 < amount
  apart : destination ≠ w.feeVault rt
  moved : rt.tokens.transferChecked w.usdc w.config.usdcMint (w.feeVault rt) destination
    rt.feeVaultPda amount w.usdcDecimals = some usdc

/-- What the execute handlers share: the account is live, its own, armed and due. -/
structure Opened (k : TimelockAction) (nonce : UInt64) (now : ℤ) (admin rentRecipient : Pubkey)
    (w : World) (tl : TimelockQueueAccount) : Prop where
  admin : w.config.admin = admin
  found : w.timelocks.lookup nonce = some tl
  notCancelled : tl.cancelled = false
  notExecuted : tl.executedAt = none
  rent : rentRecipient = tl.rentPayer
  own : tl.nonce = nonce
  disc : tl.actionDisc = k.disc
  armed : w.config.pendingNonce k = some nonce
  due : tl.executableAt ≤ now

def Authorized (suppliesGuardian : Bool) (signer : Pubkey) (w : World) : Prop :=
  ∃ guardian, optionalAccount suppliesGuardian (w.guardians.lookup signer) = .ok guardian ∧
    isAdminOrGuardian w.config signer guardian = true

def guardianAt (w : World) (k : Pubkey) : GuardianAccount :=
  (w.guardians.lookup k).getD GuardianAccount.zeroed

def exemptionAt (w : World) (k : Pubkey) : FeeExemptAccount :=
  (w.feeExempts.lookup k).getD FeeExemptAccount.zeroed

inductive Effect (rt : Runtime) (now : ℤ) (signer : Pubkey) (w : World) :
    Instruction → World → Prop
  | mintSilv {amountUsdc minSilvOut accounts price q lastPrice lastAt usdc silvMint silv}
      (minted : Minted rt amountUsdc minSilvOut accounts now signer w price q lastPrice lastAt
        usdc silvMint silv) :
      Effect rt now signer w (.mintSilv amountUsdc minSilvOut accounts)
        { w with usdc, silvMint, silv, config := { w.config with
          lastUsedFeedUpdateTimestampUs := price.feedUpdateTimestampUs
          lastRecordedPriceScaled := lastPrice
          lastPriceUpdateAt := lastAt } }
  | redeemSilv {amountSilv minUsdcOut accounts price q lastPrice lastAt usdc silvMint silv}
      (redeemed : Redeemed rt amountSilv minUsdcOut accounts now signer w price q lastPrice lastAt
        usdc silvMint silv) :
      Effect rt now signer w (.redeemSilv amountSilv minUsdcOut accounts)
        { w with usdc, silvMint, silv, config := { w.config with
          lastUsedFeedUpdateTimestampUs := price.feedUpdateTimestampUs
          instantWindowStart := q.windowStart
          instantUsedPrevUsdc := q.usedPrevUsdc
          instantUsedUsdc := q.usedUsdc
          lastRecordedPriceScaled := lastPrice
          lastPriceUpdateAt := lastAt } }
  | depositUsdc {amount userUsdcAta source treasury treasuryPost usdc}
      (found : w.usdc.lookup w.config.usdcTreasury = some treasury)
      (supplied : w.usdc.lookup userUsdcAta = some source)
      (mint : source.mint = w.config.usdcMint) (least : 1000000 ≤ amount)
      (moved : rt.tokens.transferChecked w.usdc w.config.usdcMint userUsdcAta
        w.config.usdcTreasury signer amount w.usdcDecimals = some usdc)
      (post : usdc.lookup w.config.usdcTreasury = some treasuryPost)
      (credited : 0 < saturatingSub treasuryPost.amount treasury.amount) :
      Effect rt now signer w (.depositUsdc amount userUsdcAta) { w with usdc }
  | setFeeExempt {wallet flags expiresAt addedAt} (admin : w.config.admin = signer)
      (flags_ok : sideFlagsValidNonempty flags = true) (future : now < expiresAt)
      (term : expiresAt ≤ saturatingI64 (now + MAX_FEE_EXEMPT_TERM_SECONDS))
      (added : addedAt = if (exemptionAt w wallet).addedAt = 0 then now
        else (exemptionAt w wallet).addedAt) :
      Effect rt now signer w (.setFeeExempt wallet flags expiresAt)
        { w with feeExempts :=
          w.feeExempts.insert wallet ⟨wallet, flags, addedAt, signer, expiresAt⟩ }
  | removeFeeExempt {wallet acc} (admin : w.config.admin = signer)
      (found : w.feeExempts.lookup wallet = some acc) (own : acc.wallet = wallet) :
      Effect rt now signer w (.removeFeeExempt wallet)
        { w with feeExempts := w.feeExempts.erase wallet }
  | withdrawFees {amount destination usdc} (admin : w.config.admin = signer)
      (swept : Swept rt amount destination w usdc) :
      Effect rt now signer w (.withdrawFees amount destination) { w with usdc }
  | setFeeRoutingEnabled {enabled} (admin : w.config.admin = signer)
      (changed : enabled = w.config.feeRoutingDisabled) :
      Effect rt now signer w (.setFeeRoutingEnabled enabled)
        { w with config := { w.config with feeRoutingDisabled := !enabled } }
  | setKycOperator {operator} (admin : w.config.admin = signer)
      (valid : validateKycOperatorAssignment operator w.config.admin w.config.kycScopeFlags =
        .ok ()) :
      Effect rt now signer w (.setKycOperator operator)
        { w with config := { w.config with kycOperator := operator } }
  | setKycScope {flags} (admin : w.config.admin = signer)
      (flags_ok : sideFlagsValidAllowEmpty flags = true) (changed : flags ≠ w.config.kycScopeFlags)
      (arming : validateKycArming flags w.config.kycOperator w.config.kycAttestationCount =
        .ok ()) :
      Effect rt now signer w (.setKycScope flags)
        { w with config :=
          { w.config with kycScopeFlags := flags, kycEnforced := decide (flags ≠ 0) } }
  | attestKyc {wallet reference count} (attestor : signer = w.config.kycOperator)
      (subject : wallet ≠ Bytes32.zero)
      (counted : nextAttestationCount w.config.kycAttestationCount
        (((w.kycs.lookup wallet).getD KycAccount.zeroed).version = 0) = .ok count) :
      Effect rt now signer w (.attestKyc wallet reference)
        { w with
          config := { w.config with kycAttestationCount := count }
          kycs := w.kycs.insert wallet ⟨wallet, now, signer, reference, KYC_ACCOUNT_VERSION⟩ }
  | revokeKyc {wallet allowDisarm acc outcome}
      (revoker : signer = w.config.kycOperator ∨ signer = w.config.admin)
      (found : w.kycs.lookup wallet = some acc) (own : acc.wallet = wallet)
      (resolved : resolveRevocation w.config.kycScopeFlags w.config.kycAttestationCount
        (signer = w.config.admin) allowDisarm = .ok outcome) :
      Effect rt now signer w (.revokeKyc wallet allowDisarm)
        { w with
          config := { w.config with
            kycAttestationCount := outcome.countAfter
            kycScopeFlags := outcome.scopeAfter
            kycEnforced := decide (outcome.scopeAfter ≠ 0) }
          kycs := w.kycs.erase wallet }
  | pause {suppliesGuardian} (auth : Authorized suppliesGuardian signer w) :
      Effect rt now signer w (.pause suppliesGuardian)
        { w with config := { w.config with paused := true } }
  | unpause {digest guardian g} (admin : w.config.admin = signer)
      (found : w.guardians.lookup guardian = some g) (own : g.guardian = guardian)
      (active : g.cooldownUntil = 0) (some_guardian : 0 < w.config.guardianCount)
      (independent : g.guardian ≠ w.config.admin)
      (ready : rt.hash w.config.readinessBytes = digest) :
      Effect rt now signer w (.unpause digest guardian)
        { w with config := { w.config with paused := false } }
  | setMaxSilvSupply {newMax} (admin : w.config.admin = signer)
      (ceiling : newMax ≤ MAX_SILV_SUPPLY_CEILING) (lowered : newMax ≤ w.config.maxSilvSupply)
      (covers : w.silvMint.supply ≤ newMax) :
      Effect rt now signer w (.setMaxSilvSupply newMax)
        { w with config := { w.config with maxSilvSupply := newMax } }
  | setPublicMintEnabled (admin : w.config.admin = signer)
      (opened : w.config.publicMintEnabled = true) :
      Effect rt now signer w (.setPublicMintEnabled false)
        { w with config := { w.config with
          publicMintEnabled := false
          pendingNonce := Function.update w.config.pendingNonce .setPublicMint none } }
  | setRedemptionsEnabled (admin : w.config.admin = signer)
      (enabled : w.config.redemptionsEnabled = true) :
      Effect rt now signer w (.setRedemptionsEnabled false)
        { w with config := { w.config with
          redemptionsEnabled := false
          pendingNonce := Function.update w.config.pendingNonce .setRedeemLimits none } }
  | setMinOperationUsdc {newMinUsdc} (admin : w.config.admin = signer)
      (ceiling : newMinUsdc ≤ MIN_OPERATION_CEILING_USDC)
      (changed : w.config.minOperationUsdc ≠ newMinUsdc) :
      Effect rt now signer w (.setMinOperationUsdc newMinUsdc)
        { w with config := { w.config with minOperationUsdc := newMinUsdc } }
  | emergencyTightenRedeemLimits {args pendingNonce} (admin : w.config.admin = signer)
      (anySet : args.anySet = true) (ceilings : args.validateCeilings = .ok ())
      (tighten : args.allTighten w.config = true)
      (changed : args.effectiveChange w.config = true)
      (slots : pendingNonce = if args.redemptionsEnabled.isSome then
        Function.update w.config.pendingNonce .setRedeemLimits none else w.config.pendingNonce) :
      Effect rt now signer w (.emergencyTightenRedeemLimits args)
        { w with config := { args.writeTo w.config with pendingNonce } }
  | adminPremint {amount inventorySilvAta ata supplyPost silvMint silv}
      (admin : w.config.admin = signer)
      (supplied : w.silv.lookup inventorySilvAta = some ata) (mint : ata.mint = w.config.silvMint)
      (positive : 0 < amount) (unpaused : w.config.paused = false)
      (wallet : w.config.inventoryWallet ≠ Bytes32.zero)
      (owner : ata.owner = w.config.inventoryWallet)
      (asserted : assertSilvMintInvariants rt w.silvMint w.config = .ok ())
      (post : checkedAdd w.silvMint.supply amount = some supplyPost)
      (cap : supplyPost ≤ w.config.maxSilvSupply)
      (issued : rt.tokens.mintTo w.silvMint w.silv inventorySilvAta rt.silvMintAuthority amount =
        some (silvMint, silv)) :
      Effect rt now signer w (.adminPremint amount inventorySilvAta) { w with silvMint, silv }
  | addGuardian {k} (admin : w.config.admin = signer) (notAdmin : k ≠ w.config.admin)
      (notPending : w.config.pendingAdmin ≠ some k)
      (cooled : (guardianAt w k).cooldownUntil = 0 ∨ (guardianAt w k).cooldownUntil ≤ now)
      (idle : ¬ ((guardianAt w k).addedAt ≠ 0 ∧ (guardianAt w k).cooldownUntil = 0))
      (room : w.config.guardianCount < w.config.maxGuardianCount)
      (unscheduled : (guardianAt w k).pendingRemovalAt = 0) :
      Effect rt now signer w (.addGuardian k)
        { w with
          config := { w.config with guardianCount := saturatingAdd w.config.guardianCount 1 }
          guardians := w.guardians.insert k { guardianAt w k with
            guardian := k, addedAt := now, cooldownUntil := 0, selfCancelUsed := false } }
  | removeGuardian {k g effectiveAt pendingRemovalCount} (admin : w.config.admin = signer)
      (found : w.guardians.lookup k = some g) (own : g.guardian = k) (active : g.cooldownUntil = 0)
      (delay : effectiveAt = now + w.config.adminTimelockSeconds.toNat)
      (scheduled : (g.pendingRemovalAt = 0 ∧
          mayScheduleRemoval w.config.guardianCount w.config.pendingRemovalCount = true ∧
          pendingRemovalCount.toNat = w.config.pendingRemovalCount.toNat + 1) ∨
        (g.pendingRemovalAt ≠ 0 ∧ removalScheduleExpired g.pendingRemovalAt now = true ∧
          pendingRemovalCount = w.config.pendingRemovalCount)) :
      Effect rt now signer w (.removeGuardian k)
        { w with
          config := { w.config with pendingRemovalCount }
          guardians := w.guardians.insert k { g with pendingRemovalAt := effectiveAt } }
  | finalizeGuardianRemoval {k g cooldownUntil guardianCount pendingRemovalCount}
      (found : w.guardians.lookup k = some g) (own : g.guardian = k) (active : g.cooldownUntil = 0)
      (scheduled : g.pendingRemovalAt ≠ 0) (due : g.pendingRemovalAt ≤ now)
      (inTime : removalScheduleExpired g.pendingRemovalAt now = false)
      (floor : MIN_ACTIVE_GUARDIANS < w.config.guardianCount)
      (cooldown : cooldownUntil = now + GUARDIAN_REMOVE_COOLDOWN_SECONDS)
      (count : guardianCount.toNat + 1 = w.config.guardianCount.toNat)
      (pending : pendingRemovalCount.toNat + 1 = w.config.pendingRemovalCount.toNat) :
      Effect rt now signer w (.finalizeGuardianRemoval k)
        { w with
          config := { w.config with guardianCount, pendingRemovalCount }
          guardians := w.guardians.insert k { g with cooldownUntil, pendingRemovalAt := 0 } }
  | cancelGuardianRemoval {k g selfCancelUsed pendingRemovalCount}
      (found : w.guardians.lookup k = some g) (own : g.guardian = k)
      (scheduled : g.pendingRemovalAt ≠ 0)
      (auth : selfCancelUsed = g.selfCancelUsed ∧
          (removalScheduleExpired g.pendingRemovalAt now = true ∨ signer = w.config.admin) ∨
        selfCancelUsed = true ∧ signer = k ∧ g.selfCancelUsed = false)
      (pending : pendingRemovalCount.toNat + 1 = w.config.pendingRemovalCount.toNat) :
      Effect rt now signer w (.cancelGuardianRemoval k)
        { w with
          config := { w.config with pendingRemovalCount }
          guardians := w.guardians.insert k { g with selfCancelUsed, pendingRemovalAt := 0 } }
  | proposeAdminTransfer {newAdmin eta expiresAt} (admin : w.config.admin = signer)
      (free : w.config.pendingAdmin = none ∨ w.config.pendingAdminExpiresAt < now)
      (nonzero : newAdmin ≠ Bytes32.zero) (changed : newAdmin ≠ w.config.admin)
      (delay : eta = now + w.config.adminTimelockSeconds.toNat)
      (expiry : expiresAt = eta + PENDING_ADMIN_EXPIRY_SECONDS) :
      Effect rt now signer w (.proposeAdminTransfer newAdmin)
        { w with config := { w.config with
          pendingAdmin := some newAdmin, pendingAdminEta := eta
          pendingAdminExpiresAt := expiresAt } }
  | acceptAdminTransfer (pending : w.config.pendingAdmin = some signer)
      (inTime : now ≤ w.config.pendingAdminExpiresAt) (due : w.config.pendingAdminEta ≤ now) :
      Effect rt now signer w .acceptAdminTransfer
        { w with config := { w.config with
          admin := signer, pendingAdmin := none, pendingAdminExpiresAt := 0
          pendingAdminEta := 0 } }
  | cancelAdminTransfer {suppliesGuardian} (auth : Authorized suppliesGuardian signer w) :
      Effect rt now signer w (.cancelAdminTransfer suppliesGuardian)
        { w with config := { w.config with
          pendingAdmin := none, pendingAdminExpiresAt := 0, pendingAdminEta := 0 } }
  | cancelTimelockedAction {nonce suppliesGuardian rentRecipient tl pendingNonce mintPausedUntil}
      (found : w.timelocks.lookup nonce = some tl) (notCancelled : tl.cancelled = false)
      (notExecuted : tl.executedAt = none) (rent : rentRecipient = tl.rentPayer)
      (auth : Authorized suppliesGuardian signer w) (own : tl.nonce = nonce)
      (slots : pendingNonce = match TimelockAction.ofDisc? tl.actionDisc with
        | some k => if w.config.pendingNonce k = some nonce then
            Function.update w.config.pendingNonce k none else w.config.pendingNonce
        | none => w.config.pendingNonce)
      (resumed : mintPausedUntil = if tl.actionDisc = TimelockAction.setPremiumMint.disc ∧
          w.config.pendingNonce .setPremiumMint = some nonce then 0
        else w.config.mintPausedUntil) :
      Effect rt now signer w (.cancelTimelockedAction nonce suppliesGuardian rentRecipient)
        { w with
          config := { w.config with
            pendingNonce, mintPausedUntil
            activeProposalCount := saturatingSub w.config.activeProposalCount 1 }
          timelocks := w.timelocks.erase nonce }
  | propose {change data executableAt nextNonce count mintPausedUntil}
      (queued : Queued change now signer w data executableAt nextNonce count)
      (repricing : mintPausedUntil = if change.kind = .setPremiumMint then executableAt
        else w.config.mintPausedUntil)
      (closed : ∀ v, change = .publicMint v → w.config.publicMintEnabled = false) :
      Effect rt now signer w (.propose change)
        { w with
          config := { w.config with
            nextTimelockNonce := nextNonce, activeProposalCount := count
            pendingNonce := Function.update w.config.pendingNonce change.kind
              (some w.config.nextTimelockNonce)
            mintPausedUntil := mintPausedUntil }
          timelocks := w.timelocks.insert w.config.nextTimelockNonce
            (queuedAccount change now signer w data executableAt) }
  | execute {k nonce rentRecipient recipientAta tl change w₁}
      (timelock : Opened k nonce now signer rentRecipient w tl)
      (decoded : decodeChange k tl.actionData = some change) (kind : change.kind = k)
      (applied : Applied rt recipientAta w change w₁) :
      Effect rt now signer w (.execute k nonce rentRecipient recipientAta)
        (closeTimelock k nonce w₁)

end DominionSilver
