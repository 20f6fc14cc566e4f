import DominionSilver.Sanity.Reference

/-! The bounds on the configuration. `initialize` writes values within them, and
every partial update is checked against the mixture of old and new values that
it leaves. The window is never zero, so the redemption limiter never fails
open. -/

namespace DominionSilver

open Checked Bytes Tokens

structure Bounded (c : ConfigAccount) : Prop where
  premiumBpsMint : c.premiumBpsMint ≤ 500
  premiumBpsRedeem : c.premiumBpsRedeem ≤ 500
  maxStalenessSeconds : 5 ≤ c.maxStalenessSeconds ∧ c.maxStalenessSeconds ≤ 30
  maxConfidenceBps : 1 ≤ c.maxConfidenceBps ∧ c.maxConfidenceBps ≤ 500
  minPriceUsdScaled : c.minPriceUsdScaled = 0 ∨
    5000000000 ≤ c.minPriceUsdScaled ∧ c.minPriceUsdScaled ≤ 200000000000
  priceRange : c.minPriceUsdScaled < c.maxPriceUsdScaled
  maxPriceUsdScaled : 0 < c.maxPriceUsdScaled ∧ c.maxPriceUsdScaled ≤ 200000000000
  maxPriceDeltaBps : 1 ≤ c.maxPriceDeltaBps ∧ c.maxPriceDeltaBps ≤ 1000
  priceDeltaDecaySeconds : 60 ≤ c.priceDeltaDecaySeconds ∧ c.priceDeltaDecaySeconds ≤ 604800
  priceUpdateMinAmountUsdc : c.priceUpdateMinAmountUsdc ≤ 1000000000000
  minPublishers : 2 ≤ c.minPublishers
  adminTimelockSeconds : 86400 ≤ c.adminTimelockSeconds ∧ c.adminTimelockSeconds ≤ 604800
  instantRedeemBudgetUsdc : c.instantRedeemBudgetUsdc ≤ 100000000000000
  instantRedeemWindowSeconds :
    60 ≤ c.instantRedeemWindowSeconds ∧ c.instantRedeemWindowSeconds ≤ 604800
  treasuryMinFloatUsdc : c.treasuryMinFloatUsdc ≤ 100000000000000
  minOperationUsdc : c.minOperationUsdc ≤ 100000000
  pythLazerFeedId : c.pythLazerFeedId ≠ 0
  inventoryWallet : c.inventoryWallet ≠ Bytes32.zero

def WindowInBounds (v : UInt32) : Prop :=
  INSTANT_WINDOW_MIN_SECONDS ≤ v ∧ v ≤ INSTANT_WINDOW_MAX_SECONDS

instance : DecidablePred WindowInBounds := fun _ => inferInstanceAs (Decidable (_ ∧ _))

theorem maxPrice_pos {v : UInt64} (h : MaxPriceInBounds v) : 0 < v ∧ v ≤ 200000000000 :=
  ⟨UInt64.pos_iff_ne_zero.2 h.1, h.2⟩

theorem bounded_initial {rt : Runtime} {now : ℤ} {w : World} (h : Initialized rt now w) :
    Bounded w.config := by
  obtain ⟨args, g, t, m, d⟩ := deployed_of_initialized h
  obtain ⟨usdc, -, rfl⟩ := d.state
  exact {
    premiumBpsMint := d.premiumMint
    premiumBpsRedeem := d.premiumRedeem
    maxStalenessSeconds := (by decide : StalenessInBounds DEFAULT_MAX_STALENESS_SECONDS)
    maxConfidenceBps := (by decide : ConfBpsInBounds DEFAULT_MAX_CONFIDENCE_BPS)
    minPriceUsdScaled := (by decide : MinPriceInBounds DEFAULT_MIN_PRICE_USD_SCALED)
    priceRange := (by decide : DEFAULT_MIN_PRICE_USD_SCALED < DEFAULT_MAX_PRICE_USD_SCALED)
    maxPriceUsdScaled := maxPrice_pos (by decide : MaxPriceInBounds DEFAULT_MAX_PRICE_USD_SCALED)
    maxPriceDeltaBps := (by decide : MaxDeltaBpsInBounds DEFAULT_MAX_PRICE_DELTA_BPS)
    priceDeltaDecaySeconds := (by decide : DecaySecondsInBounds DEFAULT_PRICE_DELTA_DECAY_SECONDS)
    priceUpdateMinAmountUsdc := (by decide : DEFAULT_PRICE_UPDATE_MIN_AMOUNT_USDC ≤ 1000000000000)
    minPublishers := (by decide : MIN_PUBLISHERS_FLOOR_HARD ≤ DEFAULT_MIN_PUBLISHERS)
    adminTimelockSeconds := ⟨d.timelockMin, d.timelockMax⟩
    instantRedeemBudgetUsdc :=
      (by decide : DEFAULT_INSTANT_REDEEM_BUDGET_USDC ≤ INSTANT_BUDGET_CEILING_USDC)
    instantRedeemWindowSeconds := (by decide : WindowInBounds DEFAULT_INSTANT_REDEEM_WINDOW_SECONDS)
    treasuryMinFloatUsdc :=
      (by decide : DEFAULT_TREASURY_MIN_FLOAT_USDC ≤ TREASURY_FLOAT_CEILING_USDC)
    minOperationUsdc := (by decide : DEFAULT_MIN_OPERATION_USDC ≤ MIN_OPERATION_CEILING_USDC)
    pythLazerFeedId := d.feed
    inventoryWallet := d.inventory }

theorem getD_of {α : Type} {p : α → Prop} {o : Option α} {old : α} (hold : p old)
    (hnew : ∀ v, o = some v → p v) : p (o.getD old) := by
  cases o with
  | none => exact hold
  | some v => exact hnew v rfl

theorem validateCeilings_ok {a : RedeemLimitsArgs} (h : a.validateCeilings = .ok ()) :
    (∀ v, a.instantRedeemBudgetUsdc = some v → v ≤ INSTANT_BUDGET_CEILING_USDC) ∧
      ∀ v, a.instantRedeemWindowSeconds = some v → WindowInBounds v := by
  simp only [RedeemLimitsArgs.validateCeilings, bind_ok, requireSome_ok, exists_unit] at h
  exact ⟨h.1, h.2.1⟩

theorem Bounded.writeTo {c : ConfigAccount} {a : RedeemLimitsArgs} (hc : Bounded c)
    (h : a.validateCeilings = .ok ()) : Bounded (a.writeTo c) := by
  obtain ⟨hb, hw⟩ := validateCeilings_ok h
  exact { hc with
    instantRedeemBudgetUsdc := getD_of (p := (· ≤ INSTANT_BUDGET_CEILING_USDC))
      hc.instantRedeemBudgetUsdc hb
    instantRedeemWindowSeconds := getD_of (p := WindowInBounds) hc.instantRedeemWindowSeconds hw }

theorem Bounded.applied {rt : Runtime} {ata : Pubkey} {w w₁ : World} {change : Change}
    (hc : Bounded w.config) (h : Applied rt ata w change w₁) : Bounded w₁.config := by
  cases h with
  | premiumMint bound => exact { hc with premiumBpsMint := bound }
  | premiumRedeem bound => exact { hc with premiumBpsRedeem := bound }
  | treasuryFloat bound => exact { hc with treasuryMinFloatUsdc := bound }
  | oracleGuards staleness confBps minPrice maxPrice ordered maxDelta decay dust publishers =>
    have hmin := getD_of (p := MinPriceInBounds) hc.minPriceUsdScaled minPrice
    exact { hc with
      maxStalenessSeconds := getD_of (p := StalenessInBounds) hc.maxStalenessSeconds staleness
      maxConfidenceBps := getD_of (p := ConfBpsInBounds) hc.maxConfidenceBps confBps
      minPriceUsdScaled := hmin
      priceRange := ordered.elim (fun h0 => h0 ▸ (maxPrice_pos maxPrice).1) id
      maxPriceUsdScaled := maxPrice_pos maxPrice
      maxPriceDeltaBps := getD_of (p := MaxDeltaBpsInBounds) hc.maxPriceDeltaBps maxDelta
      priceDeltaDecaySeconds := getD_of (p := DecaySecondsInBounds) hc.priceDeltaDecaySeconds decay
      priceUpdateMinAmountUsdc :=
        getD_of (p := (· ≤ 1000000000000)) hc.priceUpdateMinAmountUsdc dust
      minPublishers := getD_of (p := (2 ≤ ·)) hc.minPublishers publishers }
  | pythFeed nonzero => exact { hc with pythLazerFeedId := nonzero }
  | adminTimelock lower upper => exact { hc with adminTimelockSeconds := ⟨lower, upper⟩ }
  | redeemLimits _ ceilings => exact hc.writeTo ceilings
  | inventoryWallet _ nonzero _ => exact { hc with inventoryWallet := nonzero }
  | _ => exact { hc with }

theorem Bounded.effect {rt : Runtime} {now : ℤ} {signer : Pubkey} {ix : Instruction} {w w' : World}
    (hc : Bounded w.config) (h : Effect rt now signer w ix w') : Bounded w'.config := by
  cases h with
  | setMinOperationUsdc _ ceiling _ => exact { hc with minOperationUsdc := ceiling }
  | emergencyTightenRedeemLimits _ _ ceilings => exact { hc.writeTo ceilings with }
  | execute _ _ _ applied => exact { hc.applied applied with }
  | _ => exact { hc with }

theorem Bounded.step {rt : Runtime} {w w' : World} {e : Event} (hc : Bounded w.config)
    (h : Step rt w e w') : Bounded w'.config := by
  rcases step_cases h with ⟨c, -, -, he⟩ | ⟨-, he⟩
  · exact hc.effect he
  · exact he.config ▸ hc

theorem bounded_of_reachable {rt : Runtime} {w : World} (h : Reachable rt w) : Bounded w.config :=
  invariant_of_reachable (I := fun w => Bounded w.config) bounded_initial Bounded.effect
    (fun hc he => he.config ▸ hc) h

/-- Every reachable config is within its bounds, and the redemption window never takes the branch
that fails open. -/
theorem config_bounds {rt : Runtime} {w : World} (h : Reachable rt w) :
    Bounded w.config ∧ ¬ (w.config.instantRedeemWindowSeconds.toNat : ℤ) ≤ 0 := by
  have hb := bounded_of_reachable h
  refine ⟨hb, ?_⟩
  intro h0
  have hmin := UInt32.le_iff_toNat_le.1 hb.instantRedeemWindowSeconds.1
  have h60 : (60 : UInt32).toNat = 60 := rfl
  omega

theorem config_bounds_floatCalls :
    Bounded (Reference.final Reference.runtime Reference.start Reference.floatCalls).config ∧
      ¬ ((Reference.final Reference.runtime Reference.start
        Reference.floatCalls).config.instantRedeemWindowSeconds.toNat : ℤ) ≤ 0 :=
  config_bounds (Reference.reachable_final (by decide +kernel))

end DominionSilver
