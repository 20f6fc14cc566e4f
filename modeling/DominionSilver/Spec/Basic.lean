import DominionSilver.Library.Bytes

/-! Keys, errors and the policy constants of `state/config.rs`. -/

namespace DominionSilver

open Checked Bytes

/-- A `[u8; 32]`: a public key, a hash. -/
structure Bytes32 where
  bytes : List UInt8
  size : bytes.length = 32
deriving DecidableEq

abbrev Pubkey := Bytes32

namespace Bytes32

def ofBytes? (bs : List UInt8) : Option Bytes32 :=
  if h : bs.length = 32 then some ⟨bs, h⟩ else none

/-- `Pubkey::default()`, which is also the System program's address. -/
def zero : Bytes32 := ⟨List.replicate 32 0, rfl⟩

theorem ofBytes?_bytes (k : Bytes32) : ofBytes? k.bytes = some k := dif_pos k.size

theorem bytes_injective : Function.Injective bytes := by
  rintro ⟨bs, hs⟩ ⟨cs, ht⟩ rfl
  rfl

end Bytes32

def USDC_MAINNET : Pubkey :=
  ⟨[198, 250, 122, 243, 190, 219, 173, 58, 61, 101, 243, 106, 171, 201, 116, 49,
    177, 187, 228, 194, 210, 246, 224, 228, 124, 166, 2, 3, 69, 47, 93, 97], rfl⟩
def USDC_DEVNET : Pubkey :=
  ⟨[59, 68, 44, 179, 145, 33, 87, 241, 58, 147, 61, 1, 52, 40, 45, 3,
    43, 95, 254, 205, 1, 162, 219, 241, 183, 121, 6, 8, 223, 0, 46, 167], rfl⟩
def USDC_TESTNET : Pubkey :=
  ⟨[233, 40, 57, 85, 9, 101, 255, 212, 214, 74, 202, 175, 70, 212, 93, 247,
    49, 142, 91, 79, 87, 201, 12, 72, 125, 96, 98, 93, 130, 155, 131, 123], rfl⟩
def LAZER_PROGRAM_ID : Pubkey :=
  ⟨[12, 74, 159, 176, 3, 249, 12, 128, 32, 17, 101, 150, 154, 165, 132, 195,
    182, 126, 234, 138, 69, 43, 85, 3, 6, 14, 175, 224, 214, 116, 116, 91], rfl⟩
def LAZER_STORAGE : Pubkey :=
  ⟨[42, 109, 225, 199, 127, 174, 116, 113, 78, 156, 43, 125, 245, 28, 89, 122,
    141, 218, 138, 70, 61, 251, 135, 64, 90, 171, 220, 10, 61, 0, 238, 25], rfl⟩
def INSTRUCTIONS_SYSVAR : Pubkey :=
  ⟨[6, 167, 213, 23, 24, 123, 209, 102, 53, 218, 212, 4, 85, 253, 194, 192,
    193, 36, 198, 143, 33, 86, 117, 165, 219, 186, 203, 95, 8, 0, 0, 0], rfl⟩

/-- The variants of `DominionError` that the program raises. -/
inductive DominionError
  | paused | mintPaused | belowMinimum | aboveMaximum | staleOracle | oracleLowConfidence
  | priceOutOfBounds | oracleScalingOutOfBounds | wrongOracleFeed | negativeOraclePrice
  | priceDeltaExceeded | unauthorized | insufficientTreasury | arithmeticOverflow | zeroAmount
  | invalidPendingAdmin | pendingAdminExpired | premiumTooHigh | premiumSpreadTooLow
  | slippageExceeded | wrongMint | timelockNotElapsed | timelockActionCancelled
  | timelockActionAlreadyExecuted | permanentDelegateMismatch | transferHookUnexpected
  | transferFeeUnexpected | withdrawBlockedWhilePaused | timelockTooShort | timelockTooLong
  | guardianInCooldown | guardianCountExceeded | complianceModeUnchanged | nonceMismatch
  | proposalNoOp | proposalAlreadyActive | tooManyActiveProposals | oracleGuardsAllNone
  | invalidFeedId | withdrawRecipientMismatch | malformedActionData | serializationFailure
  | silvMintHasPreexistingSupply | silvMintAuthorityMismatch | usdcMintNotAllowed
  | silvMetadataUpdateAuthorityMismatch | supplyCapExceeded | redemptionsDisabled | floorBreached
  | disallowedMintExtension | metadataNoFields | metadataFieldEmpty | metadataFieldTooLong
  | lazerWrongAccount | lazerProgramNotExecutable | lazerStorageMalformed | lazerFeeTooHigh
  | lazerFeePayerMismatch | lazerReturnDataMissing | lazerReturnDataWrongProgram
  | lazerReturnDataMalformed | lazerPayloadInvalid | lazerMessageTooLarge | lazerTooFewPublishers
  | lazerCarriedForward | lazerWrongChannel | supplyCapRaiseBlocked | publicMintDisabled
  | inventoryWalletNotSet | invalidInventoryDestination | redemptionsEnableBlocked
  | silvFreezeAuthorityMismatch | looseningRequiresTimelock | redeemLimitsAllNone
  | deployerNotUpgradeAuthority | programNotUpgradeable | queueDelayTooShort
  | guardianFloorBreached | guardianRemovalAlreadyScheduled | guardianRemovalNotScheduled
  | supplyCapBelowSupply | guardianRemovalExpired | guardianSelfCancelExhausted
  | publicMintUnchanged | publicMintOpenRequiresTimelock | redeemLimitExceeded | kycRequired
  | kycAttestorNotSet | kycScopeInvalid | feeExemptFlagsInvalid | insufficientFeeVault
  | attestationWalletMismatch | feeExemptExpiryInvalid | feeWithdrawDestinationStranded
  | kycNoAttestationsYet | kycOperatorRequiredWhileArmed | kycLastAttestationWhileArmed
  | kycSubjectInvalid | kycRevokeWouldDisarm | kycOperatorMayNotBeAdmin | operationBelowMinimum
  | minOperationTooHigh | minOperationUnchanged | lazerReplayed | inventoryWalletUnchanged
  | noActiveGuardian | guardianNotIndependent | staleReadinessDigest
deriving DecidableEq

/-- The account constraints that Anchor checks before a handler runs. -/
inductive Constraint
  | signer | hasOne | address | seeds | tokenMint | tokenOwner | accountNotInitialized
  | accountInUse
deriving DecidableEq

/-- Why a transaction fails. `cpi` is a failure inside another program. -/
inductive Error
  | dominion (e : DominionError)
  | constraint (c : Constraint)
  | cpi
  | panic
deriving DecidableEq

abbrev Result := Except Error

/-- Anchor's `require!`. -/
def require (p : Prop) [Decidable p] (e : DominionError) : Result Unit := guardOr p (.dominion e)

def constrain (p : Prop) [Decidable p] (c : Constraint) : Result Unit :=
  guardOr p (.constraint c)

def orOverflow {α : Type} (o : Option α) : Result α := okOr o (.dominion .arithmeticOverflow)

@[simp] theorem require_ok {p : Prop} [Decidable p] {e : DominionError} {u : Unit} :
    require p e = .ok u ↔ p := guardOr_ok

@[simp] theorem require_error {p : Prop} [Decidable p] {e : DominionError} {e' : Error} :
    require p e = .error e' ↔ ¬ p ∧ .dominion e = e' := guardOr_error

@[simp] theorem constrain_ok {p : Prop} [Decidable p] {c : Constraint} {u : Unit} :
    constrain p c = .ok u ↔ p := guardOr_ok

@[simp] theorem orOverflow_ok {α : Type} {o : Option α} {a : α} :
    orOverflow o = .ok a ↔ o = some a := okOr_ok

@[simp] theorem orOverflow_error {α : Type} {o : Option α} {e : Error} :
    orOverflow o = .error e ↔ o = none ∧ .dominion .arithmeticOverflow = e := okOr_error

abbrev PREMIUM_BPS_MINT_CEILING : UInt16 := 500
abbrev PREMIUM_BPS_REDEEM_CEILING : UInt16 := 500
abbrev PREMIUM_BPS_COMBINED_FLOOR : UInt16 := 0
abbrev ADMIN_TIMELOCK_MIN_SECONDS : UInt32 := 86400
abbrev ADMIN_TIMELOCK_MAX_SECONDS : UInt32 := 604800
abbrev MAX_ACTIVE_PROPOSALS : UInt8 := 10
abbrev MAX_GUARDIAN_COUNT_DEFAULT : UInt8 := 3
abbrev PENDING_ADMIN_EXPIRY_SECONDS : ℤ := 7 * 86400
abbrev GUARDIAN_REMOVE_COOLDOWN_SECONDS : ℤ := 3600
abbrev MAX_SILV_SUPPLY_CEILING : UInt64 := 1000000000000000
abbrev TREASURY_FLOAT_CEILING_USDC : UInt64 := 100000000000000
abbrev INSTANT_BUDGET_CEILING_USDC : UInt64 := 100000000000000
abbrev INSTANT_WINDOW_MIN_SECONDS : UInt32 := 60
abbrev INSTANT_WINDOW_MAX_SECONDS : UInt32 := 604800
abbrev REDEEM_QUEUE_DELAY_MAX_SECONDS : UInt32 := 2592000
abbrev REDEEM_QUEUE_DELAY_MIN_SECONDS : UInt32 := 3600
abbrev MIN_ACTIVE_GUARDIANS : UInt8 := 1
abbrev GUARDIAN_REMOVAL_EXEC_WINDOW_SECONDS : ℤ := 7 * 86400
abbrev METADATA_NAME_MAX : ℕ := 32
abbrev METADATA_SYMBOL_MAX : ℕ := 10
abbrev METADATA_URI_MAX : ℕ := 180
abbrev MAX_STALENESS_CEILING_SECONDS : UInt32 := 30
abbrev MAX_CONFIDENCE_BPS_CEILING : UInt16 := 500
abbrev MAX_PRICE_DELTA_BPS_CEILING : UInt16 := 1000
abbrev PRICE_FATFINGER_MIN_SCALED : UInt64 := 5000000000
abbrev PRICE_FATFINGER_MAX_SCALED : UInt64 := 200000000000
abbrev LAZER_FUTURE_SKEW_US : UInt64 := 2000000
abbrev LAZER_CHANNEL_ID : UInt8 := 4
abbrev MIN_PUBLISHERS_FLOOR_HARD : UInt16 := 2
abbrev DEFAULT_MIN_PUBLISHERS : UInt16 := 2
abbrev DEFAULT_MAX_STALENESS_SECONDS : UInt32 := 15
abbrev DEFAULT_MAX_CONFIDENCE_BPS : UInt16 := 100
abbrev DEFAULT_MIN_PRICE_USD_SCALED : UInt64 := 5000000000
abbrev DEFAULT_MAX_PRICE_USD_SCALED : UInt64 := 200000000000
abbrev DEFAULT_MAX_PRICE_DELTA_BPS : UInt16 := 500
abbrev DEFAULT_PRICE_DELTA_DECAY_SECONDS : UInt32 := 3600
abbrev DEFAULT_PRICE_UPDATE_MIN_AMOUNT_USDC : UInt64 := 1000000000
abbrev DEFAULT_ADMIN_TIMELOCK_SECONDS : UInt32 := 86400
abbrev DEFAULT_MAX_SILV_SUPPLY : UInt64 := 150000000000
abbrev DEFAULT_MIN_OPERATION_USDC : UInt64 := 10000000
abbrev MIN_OPERATION_CEILING_USDC : UInt64 := 100000000
abbrev DEFAULT_TREASURY_MIN_FLOAT_USDC : UInt64 := 0
abbrev DEFAULT_LARGE_REDEEM_THRESHOLD_USDC : UInt64 := 5000000000
abbrev DEFAULT_INSTANT_REDEEM_BUDGET_USDC : UInt64 := 20000000000
abbrev DEFAULT_INSTANT_REDEEM_WINDOW_SECONDS : UInt32 := 86400
abbrev DEFAULT_REDEEM_QUEUE_DELAY_SECONDS : UInt32 := 259200
abbrev MAX_FEE_EXEMPT_TERM_SECONDS : ℤ := 2 * 365 * 86400
abbrev MAX_ACTION_DATA_BYTES : ℕ := 256
abbrev MIN_DEPOSIT_USDC : UInt64 := 1000000

end DominionSilver
