import DominionSilver.Spec.World

/-! The argument records of the timelocked actions, their validators
(`admin/execute.rs`) and their byte formats. -/

namespace DominionSilver

open Checked Bytes

structure OracleGuardsArgs where
  staleness : Option UInt32
  confBps : Option UInt16
  minPriceScaled : Option UInt64
  maxPriceScaled : Option UInt64
  maxDeltaBps : Option UInt16
  decaySeconds : Option UInt32
  dustFilterMinUsdc : Option UInt64
  minPublishers : Option UInt16
deriving DecidableEq

structure RedeemLimitsArgs where
  instantRedeemBudgetUsdc : Option UInt64
  instantRedeemWindowSeconds : Option UInt32
  largeRedeemThresholdUsdc : Option UInt64
  redeemQueueDelaySeconds : Option UInt32
  redemptionsEnabled : Option Bool
deriving DecidableEq

structure MetadataArgs where
  name : Option String
  symbol : Option String
  uri : Option String
deriving DecidableEq

instance : Codec OracleGuardsArgs :=
  Codec.ofTuple
    (fun a => (a.staleness, a.confBps, a.minPriceScaled, a.maxPriceScaled, a.maxDeltaBps,
      a.decaySeconds, a.dustFilterMinUsdc, a.minPublishers))
    (fun (a, b, c, d, e, f, g, h) => ⟨a, b, c, d, e, f, g, h⟩) fun _ => rfl

instance : Codec RedeemLimitsArgs :=
  Codec.ofTuple
    (fun a => (a.instantRedeemBudgetUsdc, a.instantRedeemWindowSeconds, a.largeRedeemThresholdUsdc,
      a.redeemQueueDelaySeconds, a.redemptionsEnabled))
    (fun (a, b, c, d, e) => ⟨a, b, c, d, e⟩) fun _ => rfl

instance : Codec MetadataArgs :=
  Codec.ofTuple (fun a => (a.name, a.symbol, a.uri)) (fun (a, b, c) => ⟨a, b, c⟩) fun _ => rfl

/-- `if let Some(v) = o { require!(p v, e) }`. -/
def requireSome {α : Type} (o : Option α) (p : α → Prop) [DecidablePred p] (e : DominionError) :
    Result Unit :=
  match o with
  | some v => require (p v) e
  | none => .ok ()

theorem requireSome_ok {α : Type} {o : Option α} {p : α → Prop} [DecidablePred p]
    {e : DominionError} {u : Unit} : requireSome o p e = .ok u ↔ ∀ v, o = some v → p v := by
  cases o <;> simp [requireSome]

theorem requireSome_error {α : Type} {o : Option α} {p : α → Prop} [DecidablePred p]
    {d d' : DominionError} :
    requireSome o p d = .error (.dominion d') ↔ (∃ v, o = some v ∧ ¬ p v) ∧ d = d' := by
  cases o <;> simp [requireSome]

/-- `o.is_some_and(|v| v != current)`. -/
def differs {α : Type} [DecidableEq α] (o : Option α) (current : α) : Bool :=
  o.any fun v => v ≠ current

namespace OracleGuardsArgs

def anySet (a : OracleGuardsArgs) : Bool :=
  a.staleness.isSome || a.confBps.isSome || a.minPriceScaled.isSome || a.maxPriceScaled.isSome ||
    a.maxDeltaBps.isSome || a.decaySeconds.isSome || a.dustFilterMinUsdc.isSome ||
    a.minPublishers.isSome

def effectiveChange (a : OracleGuardsArgs) (c : ConfigAccount) : Bool :=
  differs a.staleness c.maxStalenessSeconds || differs a.confBps c.maxConfidenceBps ||
    differs a.minPriceScaled c.minPriceUsdScaled || differs a.maxPriceScaled c.maxPriceUsdScaled ||
    differs a.maxDeltaBps c.maxPriceDeltaBps || differs a.decaySeconds c.priceDeltaDecaySeconds ||
    differs a.dustFilterMinUsdc c.priceUpdateMinAmountUsdc ||
    differs a.minPublishers c.minPublishers

end OracleGuardsArgs

/-- The bounds on single oracle guards, the same when proposed and when executed. -/
def StalenessInBounds (v : UInt32) : Prop := 5 ≤ v ∧ v ≤ MAX_STALENESS_CEILING_SECONDS
def ConfBpsInBounds (v : UInt16) : Prop := 1 ≤ v ∧ v ≤ MAX_CONFIDENCE_BPS_CEILING
def MaxDeltaBpsInBounds (v : UInt16) : Prop := 1 ≤ v ∧ v ≤ MAX_PRICE_DELTA_BPS_CEILING
def DecaySecondsInBounds (v : UInt32) : Prop := 60 ≤ v ∧ v ≤ 7 * 86400
def MinPriceInBounds (v : UInt64) : Prop :=
  v = 0 ∨ (PRICE_FATFINGER_MIN_SCALED ≤ v ∧ v ≤ PRICE_FATFINGER_MAX_SCALED)
def MaxPriceInBounds (v : UInt64) : Prop := v ≠ 0 ∧ v ≤ PRICE_FATFINGER_MAX_SCALED

instance : DecidablePred StalenessInBounds := fun _ => inferInstanceAs (Decidable (_ ∧ _))
instance : DecidablePred ConfBpsInBounds := fun _ => inferInstanceAs (Decidable (_ ∧ _))
instance : DecidablePred MaxDeltaBpsInBounds := fun _ => inferInstanceAs (Decidable (_ ∧ _))
instance : DecidablePred DecaySecondsInBounds := fun _ => inferInstanceAs (Decidable (_ ∧ _))
instance : DecidablePred MinPriceInBounds := fun _ => inferInstanceAs (Decidable (_ ∨ _))
instance : DecidablePred MaxPriceInBounds := fun _ => inferInstanceAs (Decidable (_ ∧ _))

namespace RedeemLimitsArgs

def anySet (a : RedeemLimitsArgs) : Bool :=
  a.instantRedeemBudgetUsdc.isSome || a.instantRedeemWindowSeconds.isSome ||
    a.redemptionsEnabled.isSome

/-- Only the live fields count; the threshold and the queue delay are dead. -/
def effectiveChange (a : RedeemLimitsArgs) (c : ConfigAccount) : Bool :=
  differs a.instantRedeemBudgetUsdc c.instantRedeemBudgetUsdc ||
    differs a.instantRedeemWindowSeconds c.instantRedeemWindowSeconds ||
    differs a.redemptionsEnabled c.redemptionsEnabled

def allTighten (a : RedeemLimitsArgs) (c : ConfigAccount) : Bool :=
  a.instantRedeemBudgetUsdc.all (· ≤ c.instantRedeemBudgetUsdc) &&
    a.instantRedeemWindowSeconds.all (c.instantRedeemWindowSeconds ≤ ·) &&
    a.largeRedeemThresholdUsdc.all (· ≤ c.largeRedeemThresholdUsdc) &&
    a.redeemQueueDelaySeconds.all (c.redeemQueueDelaySeconds ≤ ·) &&
    a.redemptionsEnabled ≠ some true

def validateCeilings (a : RedeemLimitsArgs) : Result Unit := do
  requireSome a.instantRedeemBudgetUsdc (· ≤ INSTANT_BUDGET_CEILING_USDC) .aboveMaximum
  requireSome a.instantRedeemWindowSeconds
    (fun v => INSTANT_WINDOW_MIN_SECONDS ≤ v ∧ v ≤ INSTANT_WINDOW_MAX_SECONDS) .aboveMaximum
  requireSome a.redeemQueueDelaySeconds (REDEEM_QUEUE_DELAY_MIN_SECONDS ≤ ·) .queueDelayTooShort
  requireSome a.redeemQueueDelaySeconds (· ≤ REDEEM_QUEUE_DELAY_MAX_SECONDS) .aboveMaximum

/-- Write the fields that are given. -/
def writeTo (a : RedeemLimitsArgs) (c : ConfigAccount) : ConfigAccount :=
  { c with
    instantRedeemBudgetUsdc := a.instantRedeemBudgetUsdc.getD c.instantRedeemBudgetUsdc
    instantRedeemWindowSeconds := a.instantRedeemWindowSeconds.getD c.instantRedeemWindowSeconds
    largeRedeemThresholdUsdc := a.largeRedeemThresholdUsdc.getD c.largeRedeemThresholdUsdc
    redeemQueueDelaySeconds := a.redeemQueueDelaySeconds.getD c.redeemQueueDelaySeconds
    redemptionsEnabled := a.redemptionsEnabled.getD c.redemptionsEnabled }

end RedeemLimitsArgs

/-- One metadata field: not empty where given, and not too long. -/
def validateMetadataField (field : Option String) (max : ℕ) : Result Unit := do
  requireSome field (· ≠ "") .metadataFieldEmpty
  requireSome field (·.utf8ByteSize ≤ max) .metadataFieldTooLong

def validateMetadataArgs (a : MetadataArgs) : Result Unit := do
  require ((a.name.isSome || a.symbol.isSome || a.uri.isSome) = true) .metadataNoFields
  validateMetadataField a.name METADATA_NAME_MAX
  validateMetadataField a.symbol METADATA_SYMBOL_MAX
  validateMetadataField a.uri METADATA_URI_MAX

/-- What a propose instruction asks for. -/
inductive Change
  | premiumMint (newBps : UInt16)
  | premiumRedeem (newBps : UInt16)
  | withdrawUsdc (amount : UInt64) (recipient : Pubkey)
  | treasuryFloat (newFloatUsdc : UInt64)
  | oracleGuards (args : OracleGuardsArgs)
  | metadata (args : MetadataArgs)
  | complianceMode (newValue : Bool)
  | pythFeed (newLazerFeedId : UInt32)
  | adminTimelock (newSeconds : UInt32)
  | redeemLimits (args : RedeemLimitsArgs)
  | publicMint (newValue : Bool)
  | inventoryWallet (newWallet : Pubkey)
deriving DecidableEq

namespace Change

def kind : Change → TimelockAction
  | premiumMint _ => .setPremiumMint
  | premiumRedeem _ => .setPremiumRedeem
  | withdrawUsdc _ _ => .withdrawUsdc
  | treasuryFloat _ => .setTreasuryFloat
  | oracleGuards _ => .setOracleGuards
  | metadata _ => .updateMetadata
  | complianceMode _ => .setComplianceMode
  | pythFeed _ => .setPythFeed
  | adminTimelock _ => .setAdminTimelock
  | redeemLimits _ => .setRedeemLimits
  | publicMint _ => .setPublicMint
  | inventoryWallet _ => .setInventoryWallet

end Change

/-- `args.serialize`, within the bytes that a timelock account holds. -/
def serializeArgs {α : Type} [Codec α] (args : α) (tooLong : DominionError) :
    Result (List UInt8) := do
  let data ← okOr (Codec.ser args) (.dominion .serializationFailure)
  require (data.length ≤ MAX_ACTION_DATA_BYTES) tooLong
  return data

/-- `action_data`. -/
def Change.encode : Change → Result (List UInt8)
  | premiumMint newBps => .ok (toLEBytes newBps)
  | premiumRedeem newBps => .ok (toLEBytes newBps)
  | withdrawUsdc amount recipient => .ok (toLEBytes amount ++ recipient.bytes)
  | treasuryFloat newFloatUsdc => .ok (toLEBytes newFloatUsdc)
  | oracleGuards args => serializeArgs args .malformedActionData
  | metadata args => serializeArgs args .metadataFieldTooLong
  | complianceMode newValue => .ok [if newValue then 1 else 0]
  | pythFeed newLazerFeedId => .ok (toLEBytes newLazerFeedId)
  | adminTimelock newSeconds => .ok (toLEBytes newSeconds)
  | redeemLimits args => serializeArgs args .malformedActionData
  | publicMint newValue => .ok [if newValue then 1 else 0]
  | inventoryWallet newWallet => .ok newWallet.bytes

end DominionSilver
