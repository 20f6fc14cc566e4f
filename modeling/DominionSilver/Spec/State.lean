import DominionSilver.Spec.Basic
import Mathlib.Logic.Function.Basic

/-! The accounts of the program (`state/`) and the pure functions on them. -/

namespace DominionSilver

open Checked Bytes

inductive TimelockAction
  | setPremiumMint | setPremiumRedeem | withdrawUsdc | setTreasuryFloat | setOracleGuards
  | updateMetadata | setComplianceMode | setPythFeed | setAdminTimelock | setRedeemLimits
  | setPublicMint | setInventoryWallet
deriving DecidableEq

namespace TimelockAction

/-- `action as u8`. -/
def disc : TimelockAction → UInt8
  | setPremiumMint => 1
  | setPremiumRedeem => 2
  | withdrawUsdc => 3
  | setTreasuryFloat => 4
  | setOracleGuards => 5
  | updateMetadata => 6
  | setComplianceMode => 7
  | setPythFeed => 8
  | setAdminTimelock => 9
  | setRedeemLimits => 10
  | setPublicMint => 11
  | setInventoryWallet => 12

def all : List TimelockAction :=
  [setPremiumMint, setPremiumRedeem, withdrawUsdc, setTreasuryFloat, setOracleGuards,
    updateMetadata, setComplianceMode, setPythFeed, setAdminTimelock, setRedeemLimits,
    setPublicMint, setInventoryWallet]

/-- The first action whose discriminant matches, as `cancel_handler` resolves it. -/
def ofDisc? (d : UInt8) : Option TimelockAction := all.find? fun k => d = k.disc

@[simp] theorem ofDisc?_disc (k : TimelockAction) : ofDisc? k.disc = some k := by
  cases k <;> rfl

theorem ofDisc?_eq_some {d : UInt8} {k : TimelockAction} : ofDisc? d = some k ↔ d = k.disc :=
  ⟨fun h => by simpa using List.find?_some h, fun h => h ▸ ofDisc?_disc k⟩

theorem disc_injective : Function.Injective disc := fun j k h => by
  have := ofDisc?_disc j
  rw [h, ofDisc?_disc] at this
  exact (Option.some.inj this).symm

end TimelockAction

structure TimelockQueueAccount where
  nonce : UInt64
  actionDisc : UInt8
  actionData : List UInt8
  scheduledAt : ℤ
  executableAt : ℤ
  executedAt : Option ℤ
  cancelled : Bool
  proposer : Pubkey
  rentPayer : Pubkey
deriving DecidableEq

/-- The fields of the config that the program reads. The twelve `pending_*_nonce` fields are one
function of the action each belongs to. -/
structure ConfigAccount where
  admin : Pubkey
  pendingAdmin : Option Pubkey
  pendingAdminExpiresAt : ℤ
  permanentDelegateExpected : Pubkey
  freezeAuthorityExpected : Pubkey
  complianceMode : Bool
  premiumBpsMint : UInt16
  premiumBpsRedeem : UInt16
  pythLazerFeedId : UInt32
  minPublishers : UInt16
  lastUsedFeedUpdateTimestampUs : UInt64
  usdcMint : Pubkey
  silvMint : Pubkey
  usdcTreasury : Pubkey
  maxStalenessSeconds : UInt32
  maxConfidenceBps : UInt16
  minPriceUsdScaled : UInt64
  maxPriceUsdScaled : UInt64
  lastRecordedPriceScaled : ℕ
  lastPriceUpdateAt : ℤ
  maxPriceDeltaBps : UInt16
  priceDeltaDecaySeconds : UInt32
  priceUpdateMinAmountUsdc : UInt64
  maxSilvSupply : UInt64
  treasuryMinFloatUsdc : UInt64
  redemptionsEnabled : Bool
  largeRedeemThresholdUsdc : UInt64
  instantRedeemBudgetUsdc : UInt64
  instantRedeemWindowSeconds : UInt32
  redeemQueueDelaySeconds : UInt32
  instantWindowStart : ℤ
  instantUsedUsdc : UInt64
  adminTimelockSeconds : UInt32
  maxGuardianCount : UInt8
  guardianCount : UInt8
  mintPausedUntil : ℤ
  paused : Bool
  nextTimelockNonce : UInt64
  activeProposalCount : UInt8
  pendingNonce : TimelockAction → Option UInt64
  pendingAdminEta : ℤ
  inventoryWallet : Pubkey
  publicMintEnabled : Bool
  kycOperator : Pubkey
  kycEnforced : Bool
  pendingRemovalCount : UInt8
  kycScopeFlags : UInt8
  instantUsedPrevUsdc : UInt64
  feeRoutingDisabled : Bool
  kycAttestationCount : UInt32
  minOperationUsdc : UInt64

namespace ConfigAccount

/-- `config.pending_<action>_nonce = None`. -/
def disarm (c : ConfigAccount) (k : TimelockAction) : ConfigAccount :=
  { c with pendingNonce := Function.update c.pendingNonce k none }

/-- The bytes that `readiness_digest` hashes. -/
def readinessBytes (c : ConfigAccount) : List UInt8 :=
  c.admin.bytes ++ c.silvMint.bytes ++ c.inventoryWallet.bytes ++
    [if c.publicMintEnabled then 1 else 0, if c.redemptionsEnabled then 1 else 0,
      c.guardianCount] ++
    toLEBytes c.minPublishers ++ toLEBytes c.pythLazerFeedId

def assertPremiumWithinBounds (c : ConfigAccount) : Result Unit := do
  require (c.premiumBpsMint ≤ PREMIUM_BPS_MINT_CEILING) .premiumTooHigh
  require (c.premiumBpsRedeem ≤ PREMIUM_BPS_REDEEM_CEILING) .premiumTooHigh
  require (PREMIUM_BPS_COMBINED_FLOOR.toNat ≤ c.premiumBpsMint.toNat + c.premiumBpsRedeem.toNat)
    .premiumSpreadTooLow

end ConfigAccount

structure GuardianAccount where
  guardian : Pubkey
  addedAt : ℤ
  cooldownUntil : ℤ
  pendingRemovalAt : ℤ
  selfCancelUsed : Bool
deriving DecidableEq

namespace GuardianAccount

/-- A freshly created account, all bytes zero. -/
def zeroed : GuardianAccount := ⟨Bytes32.zero, 0, 0, 0, false⟩

def mayAct (g : GuardianAccount) (signer admin : Pubkey) : Bool :=
  g.guardian = signer && g.cooldownUntil = 0 && g.guardian ≠ admin

end GuardianAccount

def activeNotPending (guardianCount pendingRemovalCount : UInt8) : UInt8 :=
  saturatingSub guardianCount pendingRemovalCount

def mayScheduleRemoval (guardianCount pendingRemovalCount : UInt8) : Bool :=
  MIN_ACTIVE_GUARDIANS < activeNotPending guardianCount pendingRemovalCount

def removalScheduleExpired (scheduledAt now : ℤ) : Bool :=
  scheduledAt ≠ 0 && saturatingI64 (scheduledAt + GUARDIAN_REMOVAL_EXEC_WINDOW_SECONDS) < now

inductive Side
  | mint | redeem
deriving DecidableEq

abbrev SIDE_MINT_BIT : UInt8 := 1
abbrev SIDE_REDEEM_BIT : UInt8 := 2
abbrev SIDE_ALL_BITS : UInt8 := SIDE_MINT_BIT ||| SIDE_REDEEM_BIT

namespace Side

def bit : Side → UInt8
  | mint => SIDE_MINT_BIT
  | redeem => SIDE_REDEEM_BIT

def isSetIn (s : Side) (flags : UInt8) : Bool := flags &&& s.bit ≠ 0

end Side

def sideFlagsValidNonempty (flags : UInt8) : Bool := flags ≠ 0 && flags &&& ~~~SIDE_ALL_BITS = 0

def sideFlagsValidAllowEmpty (flags : UInt8) : Bool := flags &&& ~~~SIDE_ALL_BITS = 0

structure FeeExemptAccount where
  wallet : Pubkey
  flags : UInt8
  addedAt : ℤ
  addedBy : Pubkey
  expiresAt : ℤ
deriving DecidableEq

namespace FeeExemptAccount

def zeroed : FeeExemptAccount := ⟨Bytes32.zero, 0, 0, Bytes32.zero, 0⟩

def isExpired (e : FeeExemptAccount) (now : ℤ) : Bool := e.expiresAt = 0 || e.expiresAt ≤ now

def exempts (e : FeeExemptAccount) (signer : Pubkey) (side : Side) (now : ℤ) : Bool :=
  e.wallet = signer && side.isSetIn e.flags && !e.isExpired now

end FeeExemptAccount

def validateFeeExemptFlags (flags : UInt8) : Result Unit :=
  require (sideFlagsValidNonempty flags = true) .feeExemptFlagsInvalid

def validateFeeExemptExpiry (expiresAt now : ℤ) : Result Unit :=
  require (now < expiresAt ∧ expiresAt ≤ saturatingI64 (now + MAX_FEE_EXEMPT_TERM_SECONDS))
    .feeExemptExpiryInvalid

def effectivePremiumBps (configuredBps : UInt16) (exemption : Option FeeExemptAccount)
    (signer : Pubkey) (side : Side) (now : ℤ) : UInt16 :=
  match exemption with
  | some e => if e.exempts signer side now then 0 else configuredBps
  | none => configuredBps

abbrev KYC_ACCOUNT_VERSION : UInt8 := 1

structure KycAccount where
  wallet : Pubkey
  approvedAt : ℤ
  attestor : Pubkey
  reference : Bytes32
  version : UInt8
deriving DecidableEq

namespace KycAccount

def zeroed : KycAccount := ⟨Bytes32.zero, 0, Bytes32.zero, Bytes32.zero, 0⟩

def attests (a : KycAccount) (signer : Pubkey) : Bool := a.wallet = signer

end KycAccount

def validateKycScope (flags : UInt8) : Result Unit :=
  require (sideFlagsValidAllowEmpty flags = true) .kycScopeInvalid

def enforceKyc (scopeFlags : UInt8) (side : Side) (attestation : Option KycAccount)
    (signer : Pubkey) : Result Unit :=
  if side.isSetIn scopeFlags then
    match attestation with
    | some a => require (a.attests signer = true) .kycRequired
    | none => .error (.dominion .kycRequired)
  else .ok ()

def validateKycArming (flags : UInt8) (operator : Pubkey) (attestationCount : UInt32) :
    Result Unit :=
  if flags = 0 then .ok ()
  else do
    require (operator ≠ Bytes32.zero) .kycAttestorNotSet
    require (0 < attestationCount) .kycNoAttestationsYet

def validateKycSubject (wallet : Pubkey) : Result Unit :=
  require (wallet ≠ Bytes32.zero) .kycSubjectInvalid

def nextAttestationCount (current : UInt32) (accountIsNew : Bool) : Result UInt32 :=
  if accountIsNew then orOverflow (checkedAdd current 1) else .ok current

structure RevocationOutcome where
  countAfter : UInt32
  scopeAfter : UInt8
  disarmed : Bool
deriving DecidableEq

def resolveRevocation (scopeFlags : UInt8) (countCurrent : UInt32)
    (signerIsAdmin allowDisarm : Bool) : Result RevocationOutcome := do
  let countAfter ← orOverflow (checkedSub countCurrent 1)
  if scopeFlags = 0 ∨ 0 < countAfter then
    return ⟨countAfter, scopeFlags, false⟩
  require (signerIsAdmin = true) .kycLastAttestationWhileArmed
  require (allowDisarm = true) .kycRevokeWouldDisarm
  return ⟨0, 0, true⟩

def kycOperatorMayBeCleared (scopeFlags : UInt8) : Bool := scopeFlags = 0

def validateKycOperatorAssignment (operator admin : Pubkey) (scopeFlags : UInt8) : Result Unit := do
  require (operator ≠ admin) .kycOperatorMayNotBeAdmin
  if operator = Bytes32.zero then
    require (kycOperatorMayBeCleared scopeFlags = true) .kycOperatorRequiredWhileArmed

end DominionSilver
