import DominionSilver.Library.Buffers
import DominionSilver.Spec.Main
import DominionSilver.Spec.Storage

/-! The accounts as their bytes lie (`state/`), with the fields that the instructions carry along
without reading them, and the program on those bytes: an instruction reads the accounts, runs, and
writes back over their data what it leaves of them. -/

namespace DominionSilver

open Checked Bytes Tokens

/-- The fields of the config that `initialize` alone writes and the handlers do not look at. -/
structure Inert where
  upgradeAuthorityInfo : Pubkey
  classicTokenProgram : Pubkey
  token2022Program : Pubkey
  nextRedeemRequestNonce : UInt64
  pendingMaxSupplyNonce : Option UInt64
  pendingKycOperatorNonce : Option UInt64
  porFeed : Pubkey
  porMaxStalenessSeconds : UInt32
  porEnforced : Bool
  pendingPorFeedNonce : Option UInt64
  mintPaused : Bool
  redeemPaused : Bool
  version : UInt8
deriving DecidableEq

/-- The config but for its reserved bytes. -/
structure ConfigRecord where
  config : ConfigAccount
  inert : Inert

namespace ConfigRecord

/-! The fields in the order of the struct, cut before and after each that its type does not
bound. -/

abbrev Admins : Type := Pubkey × Option Pubkey

abbrev Setup : Type :=
  Pubkey × Pubkey × Pubkey × Bool × UInt16 × UInt16 × UInt32 × UInt16 × UInt64 × Pubkey × Pubkey ×
    Pubkey × Pubkey × Pubkey × UInt32 × UInt16 × UInt64 × UInt64

abbrev Limits : Type :=
  UInt16 × UInt32 × UInt64 × UInt64 × UInt64 × Bool × UInt64 × UInt64 × UInt32 × UInt32

abbrev Usage : Type := UInt64 × UInt64 × UInt32 × UInt8 × UInt8

abbrev Queue : Type :=
  Bool × UInt64 × UInt8 × Option UInt64 × Option UInt64 × Option UInt64 × Option UInt64 ×
    Option UInt64 × Option UInt64 × Option UInt64 × Option UInt64 × Option UInt64

abbrev Launch : Type :=
  Option UInt64 × Option UInt64 × Pubkey × Bool × Pubkey × Bool × Option UInt64 × Pubkey ×
    UInt32 × Bool × Option UInt64 × Bool × Bool × UInt8 × UInt8

/-- What was taken out of the reserved bytes after the version. -/
abbrev Carved : Type :=
  Option UInt64 × UInt8 × UInt64 × Bool × UInt32 × UInt64 × Option UInt64

instance : Codec Setup := inferInstance
instance : Codec Limits := inferInstance
instance : Codec Usage := inferInstance
instance : Codec Queue := inferInstance
instance : Codec Launch := inferInstance
instance : Codec Carved := inferInstance

instance : Codec.MaxSize Setup := inferInstance
instance : Codec.MaxSize Limits := inferInstance
instance : Codec.MaxSize Usage := inferInstance
instance : Codec.MaxSize Queue := inferInstance
instance : Codec.MaxSize Launch := inferInstance
instance : Codec.MaxSize Carved := inferInstance

abbrev Fields : Type :=
  Admins × ℤ × Setup × ℕ × ℤ × Limits × ℤ × Usage × ℤ × Queue × ℤ × Launch × Carved

def fields (r : ConfigRecord) : Fields :=
  let c := r.config
  let i := r.inert
  ((c.admin, c.pendingAdmin), c.pendingAdminExpiresAt,
    (i.upgradeAuthorityInfo, c.permanentDelegateExpected, c.freezeAuthorityExpected,
      c.complianceMode, c.premiumBpsMint, c.premiumBpsRedeem, c.pythLazerFeedId, c.minPublishers,
      c.lastUsedFeedUpdateTimestampUs, c.usdcMint, c.silvMint, c.usdcTreasury,
      i.classicTokenProgram, i.token2022Program, c.maxStalenessSeconds, c.maxConfidenceBps,
      c.minPriceUsdScaled, c.maxPriceUsdScaled),
    c.lastRecordedPriceScaled, c.lastPriceUpdateAt,
    (c.maxPriceDeltaBps, c.priceDeltaDecaySeconds, c.priceUpdateMinAmountUsdc, c.maxSilvSupply,
      c.treasuryMinFloatUsdc, c.redemptionsEnabled, c.largeRedeemThresholdUsdc,
      c.instantRedeemBudgetUsdc, c.instantRedeemWindowSeconds, c.redeemQueueDelaySeconds),
    c.instantWindowStart,
    (c.instantUsedUsdc, i.nextRedeemRequestNonce, c.adminTimelockSeconds, c.maxGuardianCount,
      c.guardianCount),
    c.mintPausedUntil,
    (c.paused, c.nextTimelockNonce, c.activeProposalCount, c.pendingNonce .setPremiumMint,
      c.pendingNonce .setPremiumRedeem, c.pendingNonce .withdrawUsdc,
      c.pendingNonce .setTreasuryFloat, c.pendingNonce .setOracleGuards,
      c.pendingNonce .updateMetadata, c.pendingNonce .setComplianceMode,
      c.pendingNonce .setPythFeed, c.pendingNonce .setAdminTimelock),
    c.pendingAdminEta,
    (i.pendingMaxSupplyNonce, c.pendingNonce .setRedeemLimits, c.inventoryWallet,
      c.publicMintEnabled, c.kycOperator, c.kycEnforced, i.pendingKycOperatorNonce, i.porFeed,
      i.porMaxStalenessSeconds, i.porEnforced, i.pendingPorFeedNonce, i.mintPaused,
      i.redeemPaused, c.pendingRemovalCount, i.version),
    (c.pendingNonce .setPublicMint, c.kycScopeFlags, c.instantUsedPrevUsdc, c.feeRoutingDisabled,
      c.kycAttestationCount, c.minOperationUsdc, c.pendingNonce .setInventoryWallet))

def ofFields : Fields → ConfigRecord
  | ((admin, pendingAdmin), pendingAdminExpiresAt,
      (upgradeAuthorityInfo, permanentDelegateExpected, freezeAuthorityExpected, complianceMode,
        premiumBpsMint, premiumBpsRedeem, pythLazerFeedId, minPublishers,
        lastUsedFeedUpdateTimestampUs, usdcMint, silvMint, usdcTreasury, classicTokenProgram,
        token2022Program, maxStalenessSeconds, maxConfidenceBps, minPriceUsdScaled,
        maxPriceUsdScaled),
      lastRecordedPriceScaled, lastPriceUpdateAt,
      (maxPriceDeltaBps, priceDeltaDecaySeconds, priceUpdateMinAmountUsdc, maxSilvSupply,
        treasuryMinFloatUsdc, redemptionsEnabled, largeRedeemThresholdUsdc,
        instantRedeemBudgetUsdc, instantRedeemWindowSeconds, redeemQueueDelaySeconds),
      instantWindowStart,
      (instantUsedUsdc, nextRedeemRequestNonce, adminTimelockSeconds, maxGuardianCount,
        guardianCount),
      mintPausedUntil,
      (paused, nextTimelockNonce, activeProposalCount, premiumMint, premiumRedeem, withdraw,
        treasuryFloat, oracleGuards, metadata, compliance, pythFeed, adminTimelock),
      pendingAdminEta,
      (pendingMaxSupplyNonce, redeemLimits, inventoryWallet, publicMintEnabled, kycOperator,
        kycEnforced, pendingKycOperatorNonce, porFeed, porMaxStalenessSeconds, porEnforced,
        pendingPorFeedNonce, mintPaused, redeemPaused, pendingRemovalCount, version),
      (publicMint, kycScopeFlags, instantUsedPrevUsdc, feeRoutingDisabled, kycAttestationCount,
        minOperationUsdc, inventory)) =>
    { config := {
        admin, pendingAdmin, pendingAdminExpiresAt, permanentDelegateExpected,
        freezeAuthorityExpected, complianceMode, premiumBpsMint, premiumBpsRedeem,
        pythLazerFeedId, minPublishers, lastUsedFeedUpdateTimestampUs, usdcMint, silvMint,
        usdcTreasury, maxStalenessSeconds, maxConfidenceBps, minPriceUsdScaled, maxPriceUsdScaled,
        lastRecordedPriceScaled, lastPriceUpdateAt, maxPriceDeltaBps, priceDeltaDecaySeconds,
        priceUpdateMinAmountUsdc, maxSilvSupply, treasuryMinFloatUsdc, redemptionsEnabled,
        largeRedeemThresholdUsdc, instantRedeemBudgetUsdc, instantRedeemWindowSeconds,
        redeemQueueDelaySeconds, instantWindowStart, instantUsedUsdc, adminTimelockSeconds,
        maxGuardianCount, guardianCount, mintPausedUntil, paused, nextTimelockNonce,
        activeProposalCount, pendingAdminEta, inventoryWallet, publicMintEnabled, kycOperator,
        kycEnforced, pendingRemovalCount, kycScopeFlags, instantUsedPrevUsdc, feeRoutingDisabled,
        kycAttestationCount, minOperationUsdc
        pendingNonce := fun
          | .setPremiumMint => premiumMint
          | .setPremiumRedeem => premiumRedeem
          | .withdrawUsdc => withdraw
          | .setTreasuryFloat => treasuryFloat
          | .setOracleGuards => oracleGuards
          | .updateMetadata => metadata
          | .setComplianceMode => compliance
          | .setPythFeed => pythFeed
          | .setAdminTimelock => adminTimelock
          | .setRedeemLimits => redeemLimits
          | .setPublicMint => publicMint
          | .setInventoryWallet => inventory }
      inert := {
        upgradeAuthorityInfo, classicTokenProgram, token2022Program, nextRedeemRequestNonce,
        pendingMaxSupplyNonce, pendingKycOperatorNonce, porFeed, porMaxStalenessSeconds,
        porEnforced, pendingPorFeedNonce, mintPaused, redeemPaused, version } }

theorem ofFields_fields (r : ConfigRecord) : ofFields r.fields = r := by
  obtain ⟨c, i⟩ := r
  have hslots : (ofFields (fields ⟨c, i⟩)).config.pendingNonce = c.pendingNonce := by
    funext k
    cases k <;> rfl
  exact congrArg (fun p => (⟨{ c with pendingNonce := p }, i⟩ : ConfigRecord)) hslots

instance : Codec ConfigRecord := Codec.ofTuple fields ofFields ofFields_fields

end ConfigRecord

abbrev GUARDIAN_ACCOUNT_VERSION : UInt8 := 1
abbrev FEE_EXEMPT_ACCOUNT_VERSION : UInt8 := 1

structure GuardianRecord where
  account : GuardianAccount
  version : UInt8
deriving DecidableEq

instance : Codec GuardianRecord :=
  Codec.ofTuple
    (fun r => (r.account.guardian, r.account.addedAt, r.account.cooldownUntil,
      r.account.pendingRemovalAt, r.account.selfCancelUsed, r.version))
    (fun (a, b, c, d, e, f) => ⟨⟨a, b, c, d, e⟩, f⟩) fun _ => rfl

structure FeeExemptRecord where
  account : FeeExemptAccount
  version : UInt8
deriving DecidableEq

/-- The version lies before the expiry. -/
instance : Codec FeeExemptRecord :=
  Codec.ofTuple
    (fun r => (r.account.wallet, r.account.flags, r.account.addedAt, r.account.addedBy, r.version,
      r.account.expiresAt))
    (fun (a, b, c, d, e, f) => ⟨⟨a, b, c, d, f⟩, e⟩) fun _ => rfl

instance : Codec KycAccount :=
  Codec.ofTuple (fun a => (a.wallet, a.approvedAt, a.attestor, a.reference, a.version))
    (fun (a, b, c, d, e) => ⟨a, b, c, d, e⟩) fun _ => rfl

/-- The accounts of the program, by the seeds of their addresses. -/
inductive Address
  | config
  | timelock (nonce : UInt64)
  | guardian (key : Pubkey)
  | feeExempt (wallet : Pubkey)
  | kyc (wallet : Pubkey)
deriving DecidableEq

namespace Address

/-- What an account holds before its reserved bytes. -/
def Body : Address → Type
  | config => ConfigRecord
  | timelock _ => TimelockQueueAccount
  | guardian _ => GuardianRecord
  | feeExempt _ => FeeExemptRecord
  | kyc _ => KycAccount

instance : (a : Address) → Codec a.Body
  | config => inferInstanceAs (Codec ConfigRecord)
  | timelock _ => inferInstanceAs (Codec TimelockQueueAccount)
  | guardian _ => inferInstanceAs (Codec GuardianRecord)
  | feeExempt _ => inferInstanceAs (Codec FeeExemptRecord)
  | kyc _ => inferInstanceAs (Codec KycAccount)

/-- The length of `reserved`; a proposal has none. -/
def reserved : Address → ℕ
  | config => 23
  | timelock _ => 0
  | guardian _ => 32
  | feeExempt _ => 24
  | kyc _ => 32

def discriminator : Address → List UInt8
  | config => [189, 255, 97, 70, 186, 189, 24, 102]
  | timelock _ => TimelockQueueAccount.DISCRIMINATOR
  | guardian _ => [161, 115, 219, 82, 127, 201, 28, 142]
  | feeExempt _ => [225, 192, 121, 56, 202, 173, 143, 115]
  | kyc _ => [123, 111, 35, 238, 194, 3, 211, 78]

/-- The `SIZE` of the account's type. -/
def SIZE : Address → ℕ
  | config => 800
  | timelock _ => TimelockQueueAccount.SIZE
  | guardian _ => 8 + 32 + 8 + 8 + 8 + 1 + 1 + 32
  | feeExempt _ => 8 + 32 + 1 + 8 + 32 + 1 + 8 + 24
  | kyc _ => 8 + 32 + 8 + 32 + 32 + 1 + 32

theorem length_discriminator (a : Address) : a.discriminator.length = 8 := by
  cases a <;> rfl

theorem disc_le (a : Address) : a.discriminator.length ≤ a.SIZE := by
  rw [length_discriminator]
  cases a <;> simp [SIZE, TimelockQueueAccount.SIZE]

def layout (a : Address) : Layout (a.Body × Block a.reserved) where
  discriminator := a.discriminator
  size := a.SIZE
  disc_le := a.disc_le

end Address

/-- What the account at an address holds, if it is there. Whoever creates an account writes its
version, and nobody writes reserved bytes, which `init` leaves zero. -/
def World.record (inert : Inert) (w : World) : (a : Address) → Option (a.Body × Block a.reserved)
  | .config => some (⟨w.config, inert⟩, Block.zero 23)
  | .timelock nonce => (w.timelocks.lookup nonce).map fun tl => (tl, Block.zero 0)
  | .guardian key =>
      (w.guardians.lookup key).map fun g => (⟨g, GUARDIAN_ACCOUNT_VERSION⟩, Block.zero 32)
  | .feeExempt wallet =>
      (w.feeExempts.lookup wallet).map fun e => (⟨e, FEE_EXEMPT_ACCOUNT_VERSION⟩, Block.zero 24)
  | .kyc wallet => (w.kycs.lookup wallet).map fun k => (k, Block.zero 32)

/-- The accounts of the program as bytes, and those of the token programs. -/
structure Chain where
  data : Address → Option (List UInt8)
  silvMint : Mint Pubkey
  usdcDecimals : UInt8
  usdc : Ledger Pubkey
  silv : Ledger Pubkey

namespace Chain

/-- The token accounts are those of `w`. -/
def SameTokens (s : Chain) (w : World) : Prop :=
  s.silvMint = w.silvMint ∧ s.usdcDecimals = w.usdcDecimals ∧ s.usdc = w.usdc ∧ s.silv = w.silv

/-- The bytes are those of `w`, at the sizes allocated. -/
structure Holds (inert : Inert) (s : Chain) (w : World) : Prop where
  stored : ∀ a : Address, a.layout.Stored (s.data a) (w.record inert a)
  tokens : s.SameTokens w

/-- One step on the bytes. Anchor writes back the writable accounts of the instruction; an account
that is left as it was need not be among them. -/
def Step (rt : Runtime) (inert : Inert) (s : Chain) (e : Event) (s' : Chain) : Prop :=
  ∃ w w', s.Holds inert w ∧ DominionSilver.Step rt w e w' ∧ s'.SameTokens w' ∧
    ∀ a : Address, s'.data a = s.data a ∧ w'.record inert a = w.record inert a ∨
      a.layout.rewrite (w'.record inert a) (s.data a) = some (s'.data a)

end Chain

end DominionSilver
