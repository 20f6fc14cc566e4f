import DominionSilver.Proofs.Bounds
import DominionSilver.Proofs.Policy
import DominionSilver.Proofs.Supply
import DominionSilver.Sanity.Counter

/-! The arithmetic of a redemption never fails. The price is within its band, the supply within its
cap and the stored buckets within the ceiling of the budget, so that every value on the way fits. -/

namespace DominionSilver

open Checked Bytes Tokens Sliding

section Window

variable {now windowStart w : ℤ} {windowSeconds : UInt32} {usedCurrent usedPrev : UInt64}

/-- `as u128`, where it keeps the value. -/
def toU128 (z : ℤ) : Option ℕ := if 0 ≤ z then checkedU128 z.toNat else none

def checkedDiv (n d : ℕ) : Option ℕ := if d = 0 then none else some (n / d)

/-- `rollBuckets` with every plain operation checked. -/
def checkedRollBuckets (now windowStart w : ℤ) (usedCurrent usedPrev : UInt64) :
    Option (ℤ × UInt64 × UInt64) :=
  let elapsed := max (saturatingI64 (now - windowStart)) 0
  if windowStart = 0 then some (now, usedCurrent, usedPrev)
  else do
    let two ← checkedI64 (2 * w)
    if two ≤ elapsed then return (now, 0, 0)
    else if w ≤ elapsed then
      let start ← checkedI64 (windowStart + w)
      return (start, 0, usedCurrent)
    else return (windowStart, usedCurrent, usedPrev)

/-- `weighted_prev` with every plain operation checked, and the casts where they keep the value. -/
def checkedWeightedPrev (w into : ℤ) (prev : UInt64) : Option UInt64 := do
  let left ← toU128 (← checkedI64 (w - into))
  let product ← checkedU128 (prev.toNat * left)
  tryFrom UInt64 (← checkedDiv product (← toU128 w))

/-- `rollWindow` with every plain operation checked. -/
def checkedRollWindow (now windowStart : ℤ) (windowSeconds : UInt32)
    (usedCurrent usedPrev : UInt64) : Option WindowDecision :=
  let w : ℤ := windowSeconds.toNat
  if w ≤ 0 then some ⟨0, now, 0, 0⟩
  else do
    let (start, current, prev) ← checkedRollBuckets now windowStart w usedCurrent usedPrev
    let into := max 0 (min w (saturatingI64 (now - start)))
    let weightedPrev ← checkedWeightedPrev w into prev
    return ⟨saturatingAdd current weightedPrev, start, current, prev⟩

theorem checkedI64_of_I64 {z : ℤ} (h : I64 z) : checkedI64 z = some z :=
  checkedI64_eq_some.2 ⟨h, rfl⟩

theorem toU128_of_I64 {z : ℤ} (h : I64 z) (h0 : 0 ≤ z) : toU128 z = some z.toNat := by
  have := toNat_lt_of_I64 h
  rw [toU128, if_pos h0, checkedU128_of_lt (by omega)]

theorem checkedRollBuckets_eq (hn : I64 now) (hs : I64 windowStart) (hw : 0 < w ∧ w < 2 ^ 32) :
    checkedRollBuckets now windowStart w usedCurrent usedPrev =
      some (rollBuckets now windowStart w usedCurrent usedPrev) := by
  have htwo : I64 (2 * w) := ⟨by omega, by omega⟩
  simp only [checkedRollBuckets, rollBuckets, checkedI64_of_I64 htwo, Option.bind_eq_bind,
    Option.bind_some, pure]
  by_cases h0 : windowStart = 0
  · rw [if_pos h0, if_pos h0]
  rw [if_neg h0, if_neg h0]
  by_cases h2 : 2 * w ≤ max (saturatingI64 (now - windowStart)) 0
  · rw [if_pos h2, if_pos h2]
  rw [if_neg h2, if_neg h2]
  by_cases h1 : w ≤ max (saturatingI64 (now - windowStart)) 0
  · -- the next boundary is not past the time itself
    have hle : w ≤ now - windowStart := by
      rw [le_max_iff, le_saturatingI64 (by omega)] at h1
      omega
    have hnext : I64 (windowStart + w) := ⟨by have := hs.1; omega, by have := hn.2; omega⟩
    rw [if_pos h1, if_pos h1, checkedI64_of_I64 hnext]
    rfl
  · rw [if_neg h1, if_neg h1]

theorem checkedWeightedPrev_eq {d : ℤ} (hw : 0 < w ∧ w < 2 ^ 32) (hd : 0 ≤ d ∧ d ≤ w)
    (prev : UInt64) :
    checkedWeightedPrev w d prev =
      some (UInt64.ofNat (prev.toNat * (w - d).toNat / w.toNat)) := by
  have hleft : I64 (w - d) := ⟨by omega, by omega⟩
  have hwide : I64 w := ⟨by omega, by omega⟩
  have hmul : prev.toNat * (w - d).toNat < 2 ^ 64 * 2 ^ 32 :=
    Nat.mul_lt_mul'' prev.toNat_lt (by omega)
  have hproduct : checkedU128 (prev.toNat * (w - d).toNat) =
      some (prev.toNat * (w - d).toNat) := checkedU128_of_lt (by omega)
  have hdiv : checkedDiv (prev.toNat * (w - d).toNat) w.toNat =
      some (prev.toNat * (w - d).toNat / w.toNat) := if_neg (by omega)
  have hshare : prev.toNat * (w - d).toNat / w.toNat < 2 ^ 64 :=
    (weighted_le hd.1).trans_lt prev.toNat_lt
  simp only [checkedWeightedPrev, Option.bind_eq_bind, Option.bind_some, checkedI64_of_I64 hleft,
    toU128_of_I64 hleft (by omega), toU128_of_I64 hwide hw.1.le, hproduct, hdiv]
  exact if_pos hshare

theorem checkedRollWindow_eq (hn : I64 now) (hs : I64 windowStart) :
    checkedRollWindow now windowStart windowSeconds usedCurrent usedPrev =
      some (rollWindow now windowStart windowSeconds usedCurrent usedPrev) := by
  have hlt := windowSeconds.toNat_lt
  unfold checkedRollWindow rollWindow
  by_cases hw : (windowSeconds.toNat : ℤ) ≤ 0
  · simp only [if_pos hw]
  · have hwide : 0 < (windowSeconds.toNat : ℤ) ∧ (windowSeconds.toNat : ℤ) < 2 ^ 32 := by omega
    simp only [if_neg hw, checkedRollBuckets_eq hn hs hwide, Option.bind_eq_bind, Option.bind_some]
    obtain ⟨start, current, prev⟩ :=
      rollBuckets now windowStart windowSeconds.toNat usedCurrent usedPrev
    have hd : 0 ≤ max 0 (min (windowSeconds.toNat : ℤ) (saturatingI64 (now - start))) ∧
        max 0 (min (windowSeconds.toNat : ℤ) (saturatingI64 (now - start))) ≤
          windowSeconds.toNat := ⟨le_max_left _ _, max_le hwide.1.le (min_le_left _ _)⟩
    rw [checkedWeightedPrev_eq hwide hd prev]
    rfl

theorem effectiveUsed_le_stored (now windowStart : ℤ) (windowSeconds : UInt32)
    (usedCurrent usedPrev : UInt64) :
    (rollWindow now windowStart windowSeconds usedCurrent usedPrev).effectiveUsed.toNat ≤
      usedCurrent.toNat + usedPrev.toNat := by
  rcases Nat.eq_zero_or_pos windowSeconds.toNat with h0 | hw
  · simp only [rollWindow, if_pos (show (windowSeconds.toNat : ℤ) ≤ 0 by omega)]
    exact Nat.zero_le _
  · rw [rollWindow_effectiveUsed hw]
    exact (min_le_left _ _).trans (Counter.used_le _ _ _)

theorem rolledPrev_le_stored (now windowStart : ℤ) (windowSeconds : UInt32)
    (usedCurrent usedPrev : UInt64) :
    (rollWindow now windowStart windowSeconds usedCurrent usedPrev).rolledPrev.toNat ≤
      max usedCurrent.toNat usedPrev.toNat := by
  rcases Nat.eq_zero_or_pos windowSeconds.toNat with h0 | hw
  · simp only [rollWindow, if_pos (show (windowSeconds.toNat : ℤ) ≤ 0 by omega)]
    exact Nat.zero_le _
  · have hroll := congrArg Counter.prev
      (@rollWindow_rolled now windowStart usedCurrent usedPrev windowSeconds hw)
    exact hroll.trans_le (Counter.roll_prev_le _ _ _)

end Window

section Stored

/-- What redemptions and prices leave behind stays within the ceilings. -/
structure Metered (c : ConfigAccount) : Prop where
  used : c.instantUsedUsdc ≤ INSTANT_BUDGET_CEILING_USDC
  prev : c.instantUsedPrevUsdc ≤ INSTANT_BUDGET_CEILING_USDC
  recorded : c.lastRecordedPriceScaled ≤ PRICE_FATFINGER_MAX_SCALED.toNat

theorem readSilverPriceLazer_le {rt : Runtime} {a : LazerAccounts} {c : ConfigAccount} {now : ℤ}
    {price : LazerPriceResult} (h : readSilverPriceLazer rt a c now = .ok price) :
    price.normalizedPriceScaled ≤ c.maxPriceUsdScaled.toNat := by
  simp only [readSilverPriceLazer, bind_ok, mapErr_ok] at h
  obtain ⟨payload, -, p, hp, h⟩ := h
  obtain ⟨hacceptable, rfl⟩ := (priceFromLazer_iff (extractFeedPrice_typed hp)).1 h
  exact hacceptable.band.2

theorem Bounded.price_le {rt : Runtime} {a : LazerAccounts} {c : ConfigAccount} {now : ℤ}
    {price : LazerPriceResult} (hc : Bounded c) (h : readSilverPriceLazer rt a c now = .ok price) :
    price.normalizedPriceScaled ≤ PRICE_FATFINGER_MAX_SCALED.toNat :=
  (readSilverPriceLazer_le h).trans (UInt64.le_iff_toNat_le.1 hc.maxPriceUsdScaled.2)

theorem recordedPrice_le {c : ConfigAccount} {price bound lastPrice : ℕ} {amount : UInt64}
    {now lastAt : ℤ} (hold : c.lastRecordedPriceScaled ≤ bound) (hnew : price ≤ bound)
    (h : recordedPrice c price amount now = (lastPrice, lastAt)) : lastPrice ≤ bound := by
  unfold recordedPrice at h
  split_ifs at h
  · exact (Prod.mk.inj h).1 ▸ hnew
  · exact (Prod.mk.inj h).1 ▸ hold

theorem RedeemQuoted.used_le {c : ConfigAccount} {bps : UInt16} {price : ℕ}
    {treasuryBalance amountSilv minUsdcOut : UInt64} {now : ℤ} {q : RedeemQuote}
    (h : RedeemQuoted c bps price treasuryBalance now amountSilv minUsdcOut q) :
    q.usedUsdc ≤ c.instantRedeemBudgetUsdc := by
  obtain ⟨hbudget, -, -, hused⟩ := h.budget _ rfl
  have hrolled := rolledCurrent_le now c.instantWindowStart c.instantRedeemWindowSeconds
    c.instantUsedUsdc c.instantUsedPrevUsdc
  rw [UInt64.le_iff_toNat_le]
  omega

theorem metered_initial {rt : Runtime} {now : ℤ} {w : World} (h : Initialized rt now w) :
    Metered w.config := by
  obtain ⟨args, g, t, m, d⟩ := deployed_of_initialized h
  obtain ⟨usdc, -, rfl⟩ := d.state
  have hzero : (0 : UInt64) ≤ INSTANT_BUDGET_CEILING_USDC := by decide
  exact ⟨hzero, hzero, Nat.zero_le _⟩

theorem metered_of_applied {rt : Runtime} {ata : Pubkey} {w w₁ : World} {change : Change}
    (hm : Metered w.config) (h : Applied rt ata w change w₁) : Metered w₁.config := by
  cases h <;> exact { hm with }

theorem Metered.effect {rt : Runtime} {now : ℤ} {signer : Pubkey} {ix : Instruction} {w w' : World}
    (hb : Bounded w.config) (hm : Metered w.config) (h : Effect rt now signer w ix w') :
    Metered w'.config := by
  cases h with
  | mintSilv minted =>
    exact ⟨hm.used, hm.prev, recordedPrice_le hm.recorded (hb.price_le minted.read) minted.recorded⟩
  | redeemSilv redeemed =>
    obtain ⟨exempt, treasury, -, -, hq⟩ := redeemed.quote
    have hquoted := quoteRedeem_ok hq
    refine ⟨UInt64.le_trans hquoted.used_le hb.instantRedeemBudgetUsdc, ?_,
      recordedPrice_le hm.recorded (hb.price_le redeemed.read) redeemed.recorded⟩
    obtain ⟨-, -, hprev, -⟩ := hquoted.budget _ rfl
    have hrolled := rolledPrev_le_stored now w.config.instantWindowStart
      w.config.instantRedeemWindowSeconds w.config.instantUsedUsdc w.config.instantUsedPrevUsdc
    rw [← hprev] at hrolled
    exact UInt64.le_iff_toNat_le.2 (hrolled.trans (max_le (UInt64.le_iff_toNat_le.1 hm.used)
      (UInt64.le_iff_toNat_le.1 hm.prev)))
  | execute _ _ _ applied => exact { metered_of_applied hm applied with }
  | _ => exact { hm with }

theorem metered_of_reachable {rt : Runtime} {w : World} (h : Reachable rt w) :
    Bounded w.config ∧ Metered w.config :=
  invariant_of_reachable (I := fun w => Bounded w.config ∧ Metered w.config)
    (fun h => ⟨bounded_initial h, metered_initial h⟩)
    (fun hw he => ⟨hw.1.effect he, hw.2.effect hw.1 he⟩) (fun hw he => he.config ▸ hw) h

theorem supplyCapped_of_reachable {rt : Runtime} {w : World} (h : Reachable rt w) :
    SupplyCapped w :=
  invariant_of_reachable supplyCapped_initial SupplyCapped.effect SupplyCapped.external h

end Stored

section Redeem

variable {c : ConfigAccount} {bps : UInt16} {price : ℕ} {amountSilv : UInt64} {now : ℤ}

/-- Every sum, product and difference of a redemption fits, and the premium is within the gross. -/
structure Computed (c : ConfigAccount) (bps : UInt16) (price : ℕ) (now : ℤ) (amountSilv : UInt64)
    (win : WindowDecision) (gross fee : UInt64) : Prop where
  delta : checkPriceDelta c price now ≠ .error arithmeticOverflow
  value : silvToUsdcAtOracle amountSilv price = .ok gross
  premium : feeFromAmount gross bps = .ok fee
  premium_le : fee ≤ gross
  legs : ∃ toUser totalOut newUsed used, checkedSub gross fee = some toUser ∧
    checkedAdd toUser (feeRouted c fee) = some totalOut ∧
    checkedAdd win.effectiveUsed totalOut = some newUsed ∧
    checkedAdd win.rolledCurrent totalOut = some used

theorem checkPriceDelta_ne_overflow (hlast : c.lastRecordedPriceScaled ≤ 200000000000)
    (hprice : price ≤ 200000000000) : checkPriceDelta c price now ≠ .error arithmeticOverflow := by
  unfold checkPriceDelta
  split_ifs with h0 hdecayed
  · simp
  · simp
  · have hlhs : (if c.lastRecordedPriceScaled ≤ price then price - c.lastRecordedPriceScaled
        else c.lastRecordedPriceScaled - price) * 10000 < 2 ^ 128 := by split_ifs <;> omega
    have hrhs : c.lastRecordedPriceScaled * c.maxPriceDeltaBps.toNat < 2 ^ 38 * 2 ^ 16 :=
      Nat.mul_lt_mul'' (by omega) c.maxPriceDeltaBps.toNat_lt
    simp only [checkedU128_of_lt hlhs, checkedU128_of_lt (hrhs.trans (by norm_num))]
    simp [bind_error]

theorem exists_silvToUsdcAtOracle (hamount : amountSilv ≤ DEFAULT_MAX_SILV_SUPPLY)
    (hprice : price ≤ 200000000000) :
    ∃ gross, silvToUsdcAtOracle amountSilv price = .ok gross ∧ gross.toNat ≤ 30000000000000 := by
  have hamount : amountSilv.toNat ≤ 150000000000 := UInt64.le_iff_toNat_le.1 hamount
  have hmul := Nat.mul_le_mul hamount hprice
  have hgross : amountSilv.toNat * price / PRICE_SCALE_FACTOR ≤ 30000000000000 := by
    have := Nat.div_le_div_right (c := PRICE_SCALE_FACTOR) hmul
    omega
  obtain ⟨gross, hfit⟩ : ∃ gross, tryFrom UInt64 (amountSilv.toNat * price / PRICE_SCALE_FACTOR) =
      some gross := ⟨UInt64.ofNat _, tryFrom_eq_some.2 (Word.toNat_ofNat _ (by
        change _ < 2 ^ 64
        omega))⟩
  refine ⟨gross, ?_, (tryFrom_eq_some.1 hfit).trans_le hgross⟩
  simp only [silvToUsdcAtOracle, bind_ok, orOverflow_ok, checkedU128_eq_some]
  exact ⟨_, ⟨by omega, rfl⟩, hfit⟩

theorem computed (hm : Metered c) (hamount : amountSilv ≤ DEFAULT_MAX_SILV_SUPPLY)
    (hprice : price ≤ 200000000000) (hbps : bps ≤ 500) {win : WindowDecision}
    (hwin : win = rollWindow now c.instantWindowStart c.instantRedeemWindowSeconds
      c.instantUsedUsdc c.instantUsedPrevUsdc) :
    ∃ gross fee, Computed c bps price now amountSilv win gross fee := by
  subst hwin
  obtain ⟨gross, hgross, hsmall⟩ := exists_silvToUsdcAtOracle hamount hprice
  obtain ⟨fee, hfee, hle⟩ :=
    @exists_feeFromAmount gross bps (UInt16.le_trans hbps (by decide))
  have hcurrent := rolledCurrent_le now c.instantWindowStart c.instantRedeemWindowSeconds
    c.instantUsedUsdc c.instantUsedPrevUsdc
  have hstored := effectiveUsed_le_stored now c.instantWindowStart c.instantRedeemWindowSeconds
    c.instantUsedUsdc c.instantUsedPrevUsdc
  have hused : c.instantUsedUsdc.toNat ≤ 100000000000000 := UInt64.le_iff_toNat_le.1 hm.used
  have hprev : c.instantUsedPrevUsdc.toNat ≤ 100000000000000 := UInt64.le_iff_toNat_le.1 hm.prev
  have hrouted := feeRouted_le c fee
  have hsize : Word.size UInt64 = 2 ^ 64 := rfl
  obtain ⟨toUser, hsub⟩ := exists_checkedSub (a := gross) (b := fee) hle
  have htoUser : toUser.toNat + fee.toNat = gross.toNat := checkedSub_eq_some.1 hsub
  obtain ⟨totalOut, htotal⟩ := exists_checkedAdd (a := toUser) (b := feeRouted c fee) (by
    simp only [word_uint64]
    omega)
  have htotalOut : totalOut.toNat = toUser.toNat + (feeRouted c fee).toNat :=
    checkedAdd_eq_some.1 htotal
  have hfit : ∀ {b : UInt64}, b.toNat ≤ 200000000000000 → ∃ s, checkedAdd b totalOut = some s :=
    fun hb => exists_checkedAdd (by
      simp only [word_uint64]
      omega)
  obtain ⟨newUsed, hnew⟩ := hfit (hstored.trans (by omega))
  obtain ⟨used, hwrite⟩ := hfit (hcurrent.trans (hstored.trans (by omega)))
  exact ⟨gross, fee, checkPriceDelta_ne_overflow hm.recorded hprice, hgross, hfee,
    UInt64.le_iff_toNat_le.2 hle, toUser, totalOut, newUsed, used, hsub, htotal, hnew, hwrite⟩

theorem Computed.quoteRedeem_ne {win : WindowDecision} {gross fee treasury minUsdcOut : UInt64}
    (h : Computed c bps price now amountSilv win gross fee)
    (hwin : win = rollWindow now c.instantWindowStart c.instantRedeemWindowSeconds
      c.instantUsedUsdc c.instantUsedPrevUsdc) :
    quoteRedeem c bps price treasury now amountSilv minUsdcOut ≠ .error arithmeticOverflow := by
  subst hwin
  obtain ⟨toUser, totalOut, newUsed, used, hsub, htotal, hnew, hwrite⟩ := h.legs
  intro he
  simp [quoteRedeem, bind_error, h.value, h.premium, hsub, htotal, hnew, hwrite, pure,
    Except.pure] at he

/-- The window that a redemption works with. -/
abbrev ConfigAccount.decision (c : ConfigAccount) (now : ℤ) : WindowDecision :=
  rollWindow now c.instantWindowStart c.instantRedeemWindowSeconds c.instantUsedUsdc
    c.instantUsedPrevUsdc

theorem redeem_ne_overflow {rt : Runtime} {w : World} {call : Call} {minUsdcOut : UInt64}
    {accounts : PricedAccounts} (hix : call.ix = .redeemSilv amountSilv minUsdcOut accounts)
    (hsteps : ∀ price, readSilverPriceLazer rt accounts.lazer w.config call.now = .ok price →
      ∀ exempt user, ∃ gross fee, Computed w.config (effectivePremiumBps w.config.premiumBpsRedeem
        exempt user .redeem call.now) price.normalizedPriceScaled call.now amountSilv
        (w.config.decision call.now) gross fee) :
    exec rt call w ≠ .error arithmeticOverflow := by
  intro he
  simp only [exec, hix, dispatch, redeemSilvHandler, constrain, bind_error, guardOr_error,
    existing_error, reduceCtorEq, and_false, false_or, associated_ne, initAssociated_ne,
    optionalAccount_ne, require_error, Error.dominion.injEq, cpi_ne, transferIfPositive_ne, pure,
    Except.pure, exists_false, or_false, enforceKyc_ne (d := .arithmeticOverflow) (by decide),
    readSilverPriceLazer_ne_overflow, assertSilvMintInvariants_ne (d := .arithmeticOverflow)
      (by decide)] at he
  obtain ⟨-, -, treasury, -, -, -, -, -, -, -, exempt, -, -, -, -, -, -, -, -, -, -, -, price, hread,
    he⟩ := he
  obtain ⟨gross, fee, hc⟩ := hsteps price hread exempt call.signer
  rcases he with he | ⟨-, -, -, -, he⟩
  · exact hc.delta he
  · exact hc.quoteRedeem_ne rfl he

/-- In every reachable state a redemption of what is in circulation never meets an overflow, at any
accepted price and time, and leaves a bucket within the budget. The window is exact for all words. -/
theorem redeem_arithmetic_sound {rt : Runtime} {w : World} (h : Reachable rt w)
    (hs : amountSilv ≤ w.silvMint.supply) :
    (∀ accounts now price, readSilverPriceLazer rt accounts w.config now = .ok price →
      ∀ exempt user, ∃ gross fee, Computed w.config (effectivePremiumBps w.config.premiumBpsRedeem
        exempt user .redeem now) price.normalizedPriceScaled now amountSilv
        (w.config.decision now) gross fee) ∧
    (∀ call minUsdcOut accounts, call.ix = .redeemSilv amountSilv minUsdcOut accounts →
      exec rt call w ≠ .error arithmeticOverflow ∧ ∀ w', exec rt call w = .ok w' →
        w'.config.instantUsedUsdc ≤ w.config.instantRedeemBudgetUsdc) ∧
    ∀ now windowStart windowSeconds used prev, I64 now → I64 windowStart →
      checkedRollWindow now windowStart windowSeconds used prev =
        some (rollWindow now windowStart windowSeconds used prev) := by
  obtain ⟨hb, hm⟩ := metered_of_reachable h
  have hcap := supplyCapped_of_reachable h
  have hamount : amountSilv ≤ DEFAULT_MAX_SILV_SUPPLY :=
    UInt64.le_trans hs (UInt64.le_trans (UInt64.le_iff_toNat_le.2 hcap.supply) hcap.cap)
  have hsteps : ∀ accounts now price, readSilverPriceLazer rt accounts w.config now = .ok price →
      ∀ exempt user, ∃ gross fee, Computed w.config (effectivePremiumBps w.config.premiumBpsRedeem
        exempt user .redeem now) price.normalizedPriceScaled now amountSilv
        (w.config.decision now) gross fee := fun _ _ _ hread _ _ =>
    computed hm hamount (hb.price_le hread) (effectivePremiumBps_le hb.premiumBpsRedeem) rfl
  refine ⟨hsteps, fun call minUsdcOut accounts hix => ⟨?_, fun w' hexec => ?_⟩,
    fun _ _ _ _ _ hn hw => checkedRollWindow_eq hn hw⟩
  · exact redeem_ne_overflow hix (hsteps accounts.lazer call.now)
  · have he := (effect_of_exec hexec).2
    rw [hix] at he
    cases he with
    | redeemSilv redeemed =>
      obtain ⟨exempt, treasury, -, -, hq⟩ := redeemed.quote
      exact (quoteRedeem_ok hq).used_le

/-- The state in which `redeemCall` finds something to redeem. -/
abbrev mintedState : World :=
  Reference.final Reference.runtime Reference.start (Reference.tradeCalls.take 2)

theorem redeem_arithmetic_sound_redeemCall :
    exec Reference.runtime Reference.redeemCall mintedState ≠ .error arithmeticOverflow ∧
      ∀ w', exec Reference.runtime Reference.redeemCall mintedState = .ok w' →
        w'.config.instantUsedUsdc ≤ mintedState.config.instantRedeemBudgetUsdc :=
  (@redeem_arithmetic_sound 3000000 Reference.runtime mintedState
    (Reference.reachable_final (by decide +kernel)) (by decide +kernel)).2.1 Reference.redeemCall 0
      (Reference.pricedAt 3000000000) rfl

end Redeem

end DominionSilver
