import DominionSilver.Sanity.Counter
import DominionSilver.Sanity.Numbers
import DominionSilver.Sanity.Reference

/-! The clients predict redemptions as the program decides them. The program's window, the script's
and the two apps' are all one sliding counter; they differ only in how numbers are held. -/

namespace DominionSilver

open Checked Doubles Sliding

section Ports

variable {now w : ℤ} {c : ConfigAccount}

theorem window_lt (c : ConfigAccount) : 0 ≤ c.window ∧ c.window < 2 ^ 32 := by
  have := c.instantRedeemWindowSeconds.toNat_lt
  unfold ConfigAccount.window
  omega

theorem into_ofInt (hw : 0 ≤ w ∧ w < 2 ^ 53) (s : ℤ) :
    min (max 0 (ofInt (now - s))) w = into w s now := by
  have hlow := ofInt_le_iff (z := now - s) (show Safe 0 by decide)
  have hhigh := le_ofInt_iff (z := now - s) (show Safe w by unfold Safe; omega)
  unfold into
  by_cases hin : 0 < now - s ∧ now - s < w
  · rw [ofInt_of_safe (z := now - s) (by unfold Safe; omega)]
    omega
  · omega

theorem roll_int (hw : 0 < c.window) :
    (if c.instantWindowStart = 0 then
        (now, BN.ofU64 c.instantUsedUsdc, BN.ofU64 c.instantUsedPrevUsdc)
      else if 2 * c.window ≤ now - c.instantWindowStart then (now, 0, 0)
      else if c.window ≤ now - c.instantWindowStart then
        (c.instantWindowStart + c.window, 0, BN.ofU64 c.instantUsedUsdc)
      else (c.instantWindowStart, BN.ofU64 c.instantUsedUsdc, BN.ofU64 c.instantUsedPrevUsdc)) =
    ((c.counter.roll c.window now).start, ((c.counter.roll c.window now).current : ℤ),
      ((c.counter.roll c.window now).prev : ℤ)) := by
  by_cases h0 : c.instantWindowStart = 0
  · rw [if_pos h0, Counter.roll_unused h0]; rfl
  by_cases h2 : 2 * c.window ≤ now - c.instantWindowStart
  · rw [if_neg h0, if_pos h2, Counter.roll_two h0 h2]; rfl
  by_cases h1 : c.window ≤ now - c.instantWindowStart
  · rw [if_neg h0, if_neg h2, if_pos h1, Counter.roll_one h0 h1 h2]; rfl
  · rw [if_neg h0, if_neg h2, if_neg h1, Counter.roll_within h0 hw h1]; rfl

theorem roll_ofInt (hw : 0 < c.window) (hnow : Safe now) (hstart : Safe c.instantWindowStart) :
    (if c.instantWindowStart = 0 then
        (now, BN.ofU64 c.instantUsedUsdc, BN.ofU64 c.instantUsedPrevUsdc)
      else if ofInt (2 * c.window) ≤ max 0 (ofInt (now - c.instantWindowStart)) then (now, 0, 0)
      else if c.window ≤ max 0 (ofInt (now - c.instantWindowStart)) then
        (ofInt (c.instantWindowStart + c.window), 0, BN.ofU64 c.instantUsedUsdc)
      else (c.instantWindowStart, BN.ofU64 c.instantUsedUsdc, BN.ofU64 c.instantUsedPrevUsdc)) =
    ((c.counter.roll c.window now).start, ((c.counter.roll c.window now).current : ℤ),
      ((c.counter.roll c.window now).prev : ℤ)) := by
  obtain ⟨-, hlt⟩ := window_lt c
  have hsafe2 : Safe (2 * c.window) := by unfold Safe; omega
  have htwo : 2 * c.window ≤ max 0 (ofInt (now - c.instantWindowStart)) ↔
      2 * c.window ≤ now - c.instantWindowStart := by
    rw [le_max_iff, le_ofInt_iff hsafe2]; omega
  have hone : c.window ≤ max 0 (ofInt (now - c.instantWindowStart)) ↔
      c.window ≤ now - c.instantWindowStart := by
    rw [le_max_iff, le_ofInt_iff (by unfold Safe; omega)]; omega
  have hnext : c.window ≤ now - c.instantWindowStart →
      ofInt (c.instantWindowStart + c.window) = c.instantWindowStart + c.window := fun h => by
    obtain ⟨-, hnow⟩ := hnow
    obtain ⟨hstart, -⟩ := hstart
    exact ofInt_of_safe (by unfold Safe; omega)
  simp only [ofInt_of_safe hsafe2, htwo, hone, ← roll_int hw]
  by_cases h1 : c.window ≤ now - c.instantWindowStart
  · rw [hnext h1]
  · simp only [if_neg h1]

theorem weighted_tdiv {d : ℤ} (hw : 0 < w) (hd : d ≤ w) (n : ℕ) :
    ((n : ℤ) * (w - d)).tdiv w = weighted w n d := by
  have hnum : (n : ℤ) * (w - d) = (n * (w - d).toNat : ℕ) := by
    rw [Nat.cast_mul, Int.toNat_of_nonneg (by omega)]
  rw [hnum, weighted, Int.ofNat_tdiv, Int.toNat_of_nonneg hw.le]

/-- The previous bucket's share as the apps work it out, unless a factor is too large for it. -/
theorem share_eq_some [BnJs] {d : ℤ} {n : ℕ} {u : BN} (hw : 0 < w ∧ w < 2 ^ 32) (hd : 0 ≤ d ∧ d ≤ w) :
    (BnJs.muln (n : ℤ) (ofInt (w - d))).bind (BnJs.divn · w) = some u ↔
      (w - d < 0x4000000 ∧ w ≤ 0x3ffffff) ∧ u = weighted w n d := by
  rw [ofInt_of_safe (by unfold Safe; omega), BnJs.muln_eq _ _ (by omega)]
  by_cases hm : w - d < 0x4000000
  · rw [if_pos hm, Option.bind_some, BnJs.divn_eq _ _ hw.1]
    by_cases hdiv : w < 0x4000000
    · rw [if_pos hdiv, weighted_tdiv hw.1 hd.2, Option.some.injEq]
      exact ⟨fun h => ⟨by omega, h.symm⟩, fun h => h.2.symm⟩
    · rw [if_neg hdiv]
      exact ⟨nofun, fun h => absurd h.1 (by omega)⟩
  · rw [if_neg hm]
    exact ⟨nofun, fun h => absurd h.1 (by omega)⟩

/-- What a client that counts with doubles makes of a window that it does not take for closed. -/
def Counted (c : ConfigAccount) (now : ℤ) (u : BN) : Prop :=
  Safe c.instantWindowStart ∧
    (c.window - into c.window (c.counter.roll c.window now).start now < 0x4000000 ∧
      c.window ≤ 0x3ffffff) ∧ u = c.counter.used c.window now

theorem counted_eq_some [BnJs] {u : BN} (hw : 0 < c.window) :
    ((BnJs.muln ((c.counter.roll c.window now).prev : ℤ) (ofInt (c.window -
        min (max 0 (ofInt (now - (c.counter.roll c.window now).start))) c.window))).bind fun a =>
      (BnJs.divn a c.window).bind fun v => pure ((c.counter.roll c.window now).current + v)) =
        some u ↔
      (c.window - into c.window (c.counter.roll c.window now).start now < 0x4000000 ∧
        c.window ≤ 0x3ffffff) ∧ u = c.counter.used c.window now := by
  obtain ⟨-, hlt⟩ := window_lt c
  rw [into_ofInt (by omega), ← Option.bind_assoc, Option.bind_eq_some_iff]
  simp only [share_eq_some ⟨hw, hlt⟩ (into_bounds hw.le _), Option.pure_def, Option.some.injEq]
  constructor
  · rintro ⟨v, ⟨hfit, rfl⟩, rfl⟩
    exact ⟨hfit, rfl⟩
  · rintro ⟨hfit, rfl⟩
    exact ⟨_, ⟨hfit, rfl⟩, rfl⟩

theorem effectiveRedeemUsed_eq_some [BnJs] {u : BN} (hnow : Safe now) (hw : 0 < c.window) :
    PublicApp.effectiveRedeemUsed c now = some u ↔ Counted c now u := by
  unfold PublicApp.effectiveRedeemUsed
  change (if c.window ≤ 0 then _ else _) = _ ↔ _
  rw [if_neg (not_le.2 hw)]
  by_cases hs : Safe c.instantWindowStart
  · simp only [BnJs.toNumber_eq, if_pos hs, Option.bind_eq_bind, Option.bind_some,
      roll_ofInt hw hnow hs]
    exact (counted_eq_some hw).trans ⟨fun h => ⟨hs, h⟩, fun h => h.2⟩
  · simp only [BnJs.toNumber_eq, if_neg hs, Option.bind_eq_bind, Option.bind_none]
    exact ⟨nofun, fun h => absurd h.1 hs⟩

theorem effectiveUsedUsdc_eq_some [BnJs] {u : BN} (hnow : Safe now) (hw : 0 < c.window) :
    AdminApp.effectiveUsedUsdc c now = some u ↔ Counted c now u := by
  unfold AdminApp.effectiveUsedUsdc
  by_cases hs : Safe c.instantWindowStart
  · simp only [BnJs.toNumber_eq, if_pos hs, hw, true_and, Option.bind_eq_bind,
      Option.bind_some, roll_ofInt hw hnow hs]
    exact (counted_eq_some hw).trans ⟨fun h => ⟨hs, h⟩, fun h => h.2⟩
  · simp only [BnJs.toNumber_eq, if_neg hs, Option.bind_eq_bind, Option.bind_none]
    exact ⟨nofun, fun h => absurd h.1 hs⟩

theorem rollWindow_effectiveUsed_script (hw : 0 < c.window) :
    (Scripts.rollWindow now c.instantWindowStart c.window (BN.ofU64 c.instantUsedUsdc)
      (BN.ofU64 c.instantUsedPrevUsdc)).effectiveUsed = c.counter.used c.window now := by
  have helapsed : ∀ k, 0 < k → (k ≤ (if 0 < now - c.instantWindowStart then
      now - c.instantWindowStart else 0) ↔ k ≤ now - c.instantWindowStart) := by
    intro k hk
    split_ifs <;> omega
  have hinto : ∀ s, (if now - s < 0 then 0 else if c.window < now - s then c.window else now - s) =
      into c.window s now := by
    intro s
    unfold into
    split_ifs <;> omega
  unfold Scripts.rollWindow Counter.used
  simp only [if_neg (not_le.2 hw), helapsed _ hw, helapsed _ (show 0 < 2 * c.window by omega),
    hinto, roll_int hw, weighted_tdiv hw (into_bounds hw.le _).2, Nat.cast_add]

theorem counted_counter
    (hw : INSTANT_WINDOW_MIN_SECONDS ≤ c.instantRedeemWindowSeconds ∧
      c.instantRedeemWindowSeconds ≤ INSTANT_WINDOW_MAX_SECONDS) (hstart : Safe c.instantWindowStart) :
    0 < c.window ∧ Counted c now (c.counter.used c.window now : ℤ) := by
  have hlow : 60 ≤ c.instantRedeemWindowSeconds.toNat := UInt32.le_iff_toNat_le.1 hw.1
  have hhigh : c.instantRedeemWindowSeconds.toNat ≤ 604800 := UInt32.le_iff_toNat_le.1 hw.2
  have hwindow : c.window = c.instantRedeemWindowSeconds.toNat := rfl
  have hpos : 0 < c.window := by omega
  obtain ⟨hzero, -⟩ := @into_bounds c.window now hpos.le (c.counter.roll c.window now).start
  exact ⟨hpos, hstart, by omega, rfl⟩

end Ports

section Quotes

variable {c : ConfigAccount} {gross fee toUser totalOut : UInt64} {premiumBps bps : UInt16}

theorem redeemGrossUsdc_eq {amountSilv : UInt64} {price : ℕ}
    (h : silvToUsdcAtOracle amountSilv price = .ok gross) :
    PublicApp.redeemGrossUsdc (BN.ofU64 amountSilv) price = BN.ofU64 gross := by
  have hnum : BN.ofU64 amountSilv * (price : ℤ) = (amountSilv.toNat * price : ℕ) :=
    (Nat.cast_mul _ _).symm
  rw [PublicApp.redeemGrossUsdc, hnum, BN.ofU64, silvToUsdcAtOracle_ok h, Int.ofNat_tdiv]
  rfl

theorem feeFromAmount_nat (amount : ℕ) :
    PublicApp.feeFromAmount amount bps.toNat = premium amount bps.toNat := by
  have hnum : (amount : ℤ) * (bps.toNat : ℤ) + (10000 - 1) =
      (amount * bps.toNat + 9999 : ℕ) := by
    push_cast; ring
  rw [PublicApp.feeFromAmount, hnum, premium, Int.ofNat_tdiv]
  split_ifs with h0
  · have hz : bps.toNat = 0 := by omega
    simp [hz]
  · rfl

theorem feeFromAmount_eq (h : feeFromAmount gross premiumBps = .ok fee) :
    PublicApp.feeFromAmount (BN.ofU64 gross) premiumBps.toNat = BN.ofU64 fee := by
  rw [BN.ofU64, feeFromAmount_nat, BN.ofU64, feeFromAmount_ok h]

theorem redeemOutflowForGross_eq (hfee : feeFromAmount gross premiumBps = .ok fee)
    (hnet : checkedSub gross fee = some toUser)
    (hout : checkedAdd toUser (feeRouted c fee) = some totalOut) :
    PublicApp.redeemOutflowForGross c (BN.ofU64 gross) (some premiumBps.toNat) =
      BN.ofU64 totalOut := by
  have hnet := checkedSub_eq_some.1 hnet
  have hout := checkedAdd_eq_some.1 hout
  simp only [word_uint64] at hnet hout
  unfold PublicApp.redeemOutflowForGross
  rw [Option.getD_some, feeFromAmount_eq hfee]
  by_cases hoff : c.feeRoutingDisabled
  · rw [if_pos hoff]
    rw [feeRouted, if_pos hoff, UInt64.toNat_zero] at hout
    change (gross.toNat : ℤ) - fee.toNat = totalOut.toNat
    omega
  · rw [if_neg hoff]
    rw [feeRouted, if_neg hoff] at hout
    change (gross.toNat : ℤ) = totalOut.toNat
    omega

theorem quoteRedeem_decides {amountSilv minUsdcOut treasury newUsed : UInt64} {price : ℕ} {now : ℤ}
    (hgross : silvToUsdcAtOracle amountSilv price = .ok gross)
    (hfee : feeFromAmount gross premiumBps = .ok fee) (hnet : checkedSub gross fee = some toUser)
    (hout : checkedAdd toUser (feeRouted c fee) = some totalOut)
    (hused : checkedAdd (rollWindow now c.instantWindowStart c.instantRedeemWindowSeconds
      c.instantUsedUsdc c.instantUsedPrevUsdc).effectiveUsed totalOut = some newUsed)
    (hpos : 0 < gross) (hmin : c.minOperationUsdc ≤ gross) (huser : 0 < toUser)
    (hslip : minUsdcOut ≤ toUser) :
    (quoteRedeem c premiumBps price treasury now amountSilv minUsdcOut =
        .error (.dominion .redeemLimitExceeded) ↔ ¬ newUsed ≤ c.instantRedeemBudgetUsdc) ∧
      (quoteRedeem c premiumBps price treasury now amountSilv minUsdcOut =
        .error (.dominion .insufficientTreasury) ↔
          newUsed ≤ c.instantRedeemBudgetUsdc ∧ ¬ totalOut ≤ treasury) ∧
      ((∃ q, quoteRedeem c premiumBps price treasury now amountSilv minUsdcOut = .ok q) ↔
        newUsed ≤ c.instantRedeemBudgetUsdc ∧ totalOut ≤ treasury) := by
  obtain ⟨used, hcurrent⟩ : ∃ used, checkedAdd (rollWindow now c.instantWindowStart
      c.instantRedeemWindowSeconds c.instantUsedUsdc c.instantUsedPrevUsdc).rolledCurrent totalOut =
        some used := by
    have hle := rolledCurrent_le now c.instantWindowStart c.instantRedeemWindowSeconds
      c.instantUsedUsdc c.instantUsedPrevUsdc
    have hnew := checkedAdd_eq_some.1 hused
    refine exists_checkedAdd (lt_of_le_of_lt ?_ (Word.toNat_lt newUsed))
    rw [hnew]
    exact Nat.add_le_add_right hle _
  simp only [quoteRedeem, hgross, hfee, hnet, hout, hused, hcurrent, require, orOverflow, okOr,
    guardOr, if_pos hpos, if_pos hmin, if_pos huser, if_pos hslip, bind, Except.bind]
  by_cases hb : newUsed ≤ c.instantRedeemBudgetUsdc
  · by_cases ht : totalOut ≤ treasury
    · simp [hb, ht, pure, Except.pure]
    · simp [hb, ht]
  · simp [hb]

end Quotes

section Agreement

theorem ofU64_le {a b : UInt64} : BN.ofU64 a ≤ BN.ofU64 b ↔ a ≤ b := by
  rw [UInt64.le_iff_toNat_le]
  exact Int.ofNat_le

theorem classifyRedeem_routes [BnJs] {c : ConfigAccount} {now : ℤ} {kycAttested : Option Bool}
    {bps : Option ℤ} {used out newUsed treasury gross : UInt64}
    (hused : PublicApp.effectiveRedeemUsed c now = some (BN.ofU64 used))
    (hout : PublicApp.redeemOutflowForGross c (BN.ofU64 gross) bps = BN.ofU64 out)
    (hnew : checkedAdd used out = some newUsed) :
    ∃ route, PublicApp.classifyRedeem c (BN.ofU64 treasury) (BN.ofU64 gross) now kycAttested bps =
        some route ∧ (route ≠ .disabled → route ≠ .kyc →
      (route = .limit ↔ ¬ newUsed ≤ c.instantRedeemBudgetUsdc) ∧
      (route = .otc ↔ newUsed ≤ c.instantRedeemBudgetUsdc ∧ ¬ out ≤ treasury) ∧
      (route = .instant ↔ newUsed ≤ c.instantRedeemBudgetUsdc ∧ out ≤ treasury)) := by
  have hsum : BN.ofU64 used + BN.ofU64 out = BN.ofU64 newUsed := by
    have hnew := checkedAdd_eq_some.1 hnew
    simp only [word_uint64] at hnew
    change (used.toNat : ℤ) + out.toNat = newUsed.toNat
    omega
  simp only [PublicApp.classifyRedeem, hout, hused, hsum, Option.bind_eq_bind, Option.bind_some,
    Option.pure_def, ← not_le, ofU64_le]
  split_ifs with hdisabled hkyc hbudget htreasury
  · exact ⟨.disabled, rfl, fun h => absurd rfl h⟩
  · exact ⟨.kyc, rfl, fun _ h => absurd rfl h⟩
  · exact ⟨.instant, rfl, by simp [hbudget, htreasury]⟩
  · exact ⟨.otc, rfl, by simp [hbudget, htreasury]⟩
  · exact ⟨.limit, rfl, by simp [hbudget]⟩

/-- For a window start that a double holds, the three counts are the program's, the gross value,
the premium and the outflow are the program's, and a redemption that is neither disabled nor held
for verification is routed as the program's checks decide. -/
theorem clients_agree [BnJs] {c : ConfigAccount} {now : ℤ} {price : ℕ} {premiumBps : UInt16}
    {treasury amountSilv gross fee toUser totalOut newUsed : UInt64} {win : WindowDecision}
    (hw : INSTANT_WINDOW_MIN_SECONDS ≤ c.instantRedeemWindowSeconds ∧
      c.instantRedeemWindowSeconds ≤ INSTANT_WINDOW_MAX_SECONDS)
    (hnow : Safe now) (hstart : Safe c.instantWindowStart)
    (hsat : c.counter.used c.window now < 2 ^ 64)
    (hwin : win = rollWindow now c.instantWindowStart c.instantRedeemWindowSeconds
      c.instantUsedUsdc c.instantUsedPrevUsdc)
    (hgross : silvToUsdcAtOracle amountSilv price = .ok gross)
    (hfee : feeFromAmount gross premiumBps = .ok fee) (hnet : checkedSub gross fee = some toUser)
    (hout : checkedAdd toUser (feeRouted c fee) = some totalOut)
    (hused : checkedAdd win.effectiveUsed totalOut = some newUsed) :
    PublicApp.effectiveRedeemUsed c now = some (BN.ofU64 win.effectiveUsed) ∧
      (Scripts.rollWindow now c.instantWindowStart c.window (BN.ofU64 c.instantUsedUsdc)
        (BN.ofU64 c.instantUsedPrevUsdc)).effectiveUsed = BN.ofU64 win.effectiveUsed ∧
      AdminApp.effectiveUsedUsdc c now = some (BN.ofU64 win.effectiveUsed) ∧
      PublicApp.redeemGrossUsdc (BN.ofU64 amountSilv) price = BN.ofU64 gross ∧
      PublicApp.feeFromAmount (BN.ofU64 gross) premiumBps.toNat = BN.ofU64 fee ∧
      PublicApp.redeemOutflowForGross c (BN.ofU64 gross) (some premiumBps.toNat) =
        BN.ofU64 totalOut ∧
      (∀ kycAttested, ∃ route, PublicApp.classifyRedeem c (BN.ofU64 treasury) (BN.ofU64 gross) now
          kycAttested (some premiumBps.toNat) = some route ∧
        (route ≠ .disabled → route ≠ .kyc →
          (route = .limit ↔ ¬ newUsed ≤ c.instantRedeemBudgetUsdc) ∧
          (route = .otc ↔ newUsed ≤ c.instantRedeemBudgetUsdc ∧ ¬ totalOut ≤ treasury) ∧
          (route = .instant ↔ newUsed ≤ c.instantRedeemBudgetUsdc ∧ totalOut ≤ treasury))) ∧
      ∀ minUsdcOut, 0 < gross → c.minOperationUsdc ≤ gross → 0 < toUser → minUsdcOut ≤ toUser →
        (quoteRedeem c premiumBps price treasury now amountSilv minUsdcOut =
            .error (.dominion .redeemLimitExceeded) ↔ ¬ newUsed ≤ c.instantRedeemBudgetUsdc) ∧
          (quoteRedeem c premiumBps price treasury now amountSilv minUsdcOut =
            .error (.dominion .insufficientTreasury) ↔
              newUsed ≤ c.instantRedeemBudgetUsdc ∧ ¬ totalOut ≤ treasury) ∧
          ((∃ q, quoteRedeem c premiumBps price treasury now amountSilv minUsdcOut = .ok q) ↔
            newUsed ≤ c.instantRedeemBudgetUsdc ∧ totalOut ≤ treasury) := by
  obtain ⟨hpos, hcounted⟩ := @counted_counter now c hw hstart
  have hcount : win.effectiveUsed.toNat = c.counter.used c.window now := by
    rw [hwin, effectiveUsed_counter (Int.natCast_pos.1 hpos)]
    exact min_eq_left (Nat.le_sub_one_of_lt hsat)
  rw [← hcount] at hcounted
  have hclient := (effectiveRedeemUsed_eq_some hnow hpos).2 hcounted
  have houtflow := redeemOutflowForGross_eq hfee hnet hout
  refine ⟨hclient, ?_, (effectiveUsedUsdc_eq_some hnow hpos).2 hcounted,
    redeemGrossUsdc_eq hgross, feeFromAmount_eq hfee, houtflow, ?_, ?_⟩
  · rw [rollWindow_effectiveUsed_script hpos, BN.ofU64, hcount]
  · intro kycAttested
    exact classifyRedeem_routes hclient houtflow hused
  · intro minUsdcOut
    exact quoteRedeem_decides hgross hfee hnet hout (hwin ▸ hused)

/-- A config some way into its second window, and one whose window starts where doubles end. -/
def slidConfig : ConfigAccount :=
  { Reference.start.config with
    instantWindowStart := 1000, instantUsedUsdc := 600, instantUsedPrevUsdc := 864 }

def farConfig : ConfigAccount := { slidConfig with instantWindowStart := 2 ^ 53 }

theorem clients_agree_slidConfig :
    PublicApp.effectiveRedeemUsed slidConfig 2000 = some (BN.ofU64 (rollWindow 2000 1000
      slidConfig.instantRedeemWindowSeconds 600 864).effectiveUsed) :=
  (@clients_agree _ slidConfig 2000 30000000000 150 500 100 3000 45 2955 3000 4454 _ (by decide)
    (by decide) (by decide) (by decide +kernel) rfl (by decide +kernel) (by decide +kernel)
    (by decide +kernel) (by decide +kernel) (by decide +kernel)).1

/-- Nothing overflows or saturates, and yet the apps throw. -/
theorem clients_disagree_farConfig :
    farConfig.counter.used farConfig.window 2000 < 2 ^ 64 ∧
      (rollWindow 2000 farConfig.instantWindowStart farConfig.instantRedeemWindowSeconds
        farConfig.instantUsedUsdc farConfig.instantUsedPrevUsdc).effectiveUsed = 1464 ∧
      PublicApp.effectiveRedeemUsed farConfig 2000 = none ∧
      AdminApp.effectiveUsedUsdc farConfig 2000 = none := by
  decide +kernel

end Agreement

section Promise

variable {c : ConfigAccount} {tClient tChain : ℤ}

theorem ofInt_eq_zero {z : ℤ} : ofInt z = 0 ↔ z = 0 := by
  have hle := ofInt_le_iff (z := z) (show Safe 0 by decide)
  have hge := le_ofInt_iff (z := z) (show Safe 0 by decide)
  omega

theorem effectivePremiumBps_later {exemption : Option FeeExemptAccount} {user : Pubkey}
    {bps : UInt16} (hsafe : Safe tClient) (hle : tClient ≤ tChain) :
    PublicApp.effectivePremiumBps bps.toNat (exemption.map (·.flags))
        (exemption.map PublicApp.decodeFeeExemptExpiry) .redeem tClient = 0 ∨
      PublicApp.effectivePremiumBps bps.toNat (exemption.map (·.flags))
          (exemption.map PublicApp.decodeFeeExemptExpiry) .redeem tClient = bps.toNat ∧
        effectivePremiumBps bps exemption user .redeem tChain = bps := by
  cases exemption with
  | none => exact .inr ⟨rfl, rfl⟩
  | some e =>
    simp only [Option.map_some, PublicApp.effectivePremiumBps, PublicApp.decodeFeeExemptExpiry,
      ofInt_eq_zero, ofInt_le_iff hsafe]
    by_cases hexpired : e.expiresAt = 0 ∨ e.expiresAt ≤ tClient
    · rw [if_pos hexpired]
      have hlater : e.isExpired tChain = true := by
        simp only [FeeExemptAccount.isExpired, Bool.or_eq_true, decide_eq_true_eq]
        exact hexpired.imp_right fun h => h.trans hle
      refine .inr ⟨rfl, if_neg ?_⟩
      simp [FeeExemptAccount.exempts, hlater]
    · rw [if_neg hexpired]
      by_cases hflag : e.flags &&& 2 ≠ 0
      · exact .inl (if_pos hflag)
      · refine .inr ⟨if_neg hflag, if_neg ?_⟩
        simp [FeeExemptAccount.exempts, Side.isSetIn, Side.bit, not_not.1 hflag]

theorem classifyRedeem_instant [BnJs] {treasury gross : UInt64} {kycAttested : Option Bool}
    {bps : Option ℤ} (h : PublicApp.classifyRedeem c (BN.ofU64 treasury) (BN.ofU64 gross) tClient
      kycAttested bps = some .instant) :
    ∃ used outflow : ℤ, PublicApp.effectiveRedeemUsed c tClient = some used ∧
      PublicApp.redeemOutflowForGross c (BN.ofU64 gross) bps = outflow ∧
      used + outflow ≤ c.instantRedeemBudgetUsdc.toNat ∧ outflow ≤ treasury.toNat := by
  unfold PublicApp.classifyRedeem at h
  split_ifs at h with hdisabled hkyc
  · cases h
  · cases h
  · obtain ⟨used, hused, h⟩ := Option.bind_eq_some_iff.1 h
    split_ifs at h with hbudget htreasury
    · cases h
    · cases h
    · exact ⟨used, _, hused, rfl, not_lt.1 hbudget, not_lt.1 htreasury⟩

theorem effectiveUsed_le [BnJs] {used : ℤ} (hsafe : Safe tClient) (hle : tClient ≤ tChain)
    (h : PublicApp.effectiveRedeemUsed c tClient = some used) :
    ((rollWindow tChain c.instantWindowStart c.instantRedeemWindowSeconds c.instantUsedUsdc
      c.instantUsedPrevUsdc).effectiveUsed.toNat : ℤ) ≤ used := by
  have hwindow : c.window = c.instantRedeemWindowSeconds.toNat := rfl
  rcases Nat.eq_zero_or_pos c.instantRedeemWindowSeconds.toNat with hzero | hpos
  · have hw : (c.instantRedeemWindowSeconds.toNat : ℤ) ≤ 0 := by omega
    simp only [PublicApp.effectiveRedeemUsed, if_pos hw, Option.pure_def, Option.some.injEq] at h
    simp only [rollWindow, if_pos hw, ← h]
    exact le_rfl
  · obtain ⟨-, -, rfl⟩ := (effectiveRedeemUsed_eq_some hsafe (by omega)).1 h
    rw [rollWindow_effectiveUsed hpos]
    exact Int.ofNat_le.2 ((min_le_left _ _).trans (Counter.used_anti (by omega) hle))

theorem totalOut_le {gross fee toUser out : UInt64} {bps : ℤ} {chainBps : UInt16}
    (hbps : bps = 0 ∨ bps = chainBps.toNat) (hfee : feeFromAmount gross chainBps = .ok fee)
    (hnet : checkedSub gross fee = some toUser)
    (hout : checkedAdd toUser (feeRouted c fee) = some out) :
    ∀ outflow : ℤ, PublicApp.redeemOutflowForGross c (BN.ofU64 gross) (some bps) = outflow →
      (out.toNat : ℤ) ≤ outflow := by
  rintro outflow rfl
  rcases hbps with rfl | rfl
  · have hall : PublicApp.redeemOutflowForGross c (BN.ofU64 gross) (some 0) = BN.ofU64 gross := by
      simp [PublicApp.redeemOutflowForGross, PublicApp.feeFromAmount]
    rw [hall]
    have hnet := checkedSub_eq_some.1 hnet
    have hout := checkedAdd_eq_some.1 hout
    simp only [word_uint64] at hnet hout
    change (out.toNat : ℤ) ≤ gross.toNat
    unfold feeRouted at hout
    split_ifs at hout
    · rw [UInt64.toNat_zero] at hout; omega
    · omega
  · rw [redeemOutflowForGross_eq hfee hnet hout]
    exact le_rfl

/-- A redemption that the client's clock calls instant passes the budget check and the treasury
check of the program at any later time, whatever boundary or expiry lies in between; and where the
premium is a legal one, the program gets to these checks. -/
theorem promised_instant_served [BnJs] {treasury gross : UInt64} {exemption : Option FeeExemptAccount}
    {user : Pubkey} {kycAttested : Option Bool} (hsafe : Safe tClient) (hle : tClient ≤ tChain)
    (h : PublicApp.classifyRedeem c (BN.ofU64 treasury) (BN.ofU64 gross) tClient kycAttested
      (some (PublicApp.effectivePremiumBps c.premiumBpsRedeem.toNat (exemption.map (·.flags))
        (exemption.map PublicApp.decodeFeeExemptExpiry) .redeem tClient)) = some .instant) :
    (∀ fee toUser out, feeFromAmount gross
          (effectivePremiumBps c.premiumBpsRedeem exemption user .redeem tChain) = .ok fee →
        checkedSub gross fee = some toUser → checkedAdd toUser (feeRouted c fee) = some out →
        (∃ newUsed, checkedAdd (rollWindow tChain c.instantWindowStart c.instantRedeemWindowSeconds
            c.instantUsedUsdc c.instantUsedPrevUsdc).effectiveUsed out = some newUsed ∧
          newUsed ≤ c.instantRedeemBudgetUsdc) ∧ out ≤ treasury) ∧
      (c.premiumBpsRedeem ≤ 10000 → ∃ fee toUser out, feeFromAmount gross
          (effectivePremiumBps c.premiumBpsRedeem exemption user .redeem tChain) = .ok fee ∧
        checkedSub gross fee = some toUser ∧ checkedAdd toUser (feeRouted c fee) = some out) := by
  obtain ⟨used, outflow, hused, houtflow, hbudget, htreasury⟩ := classifyRedeem_instant h
  have hcount := effectiveUsed_le hsafe hle hused
  constructor
  · intro fee toUser out hfee hnet hout
    have hout_le := totalOut_le (c := c) ((effectivePremiumBps_later hsafe hle).imp_right
      fun h => h.1.trans (congrArg (fun b : UInt16 => (b.toNat : ℤ)) h.2.symm)) hfee hnet hout _ houtflow
    have hlt := c.instantRedeemBudgetUsdc.toNat_lt
    obtain ⟨newUsed, hnew⟩ := exists_checkedAdd (a := (rollWindow tChain c.instantWindowStart
      c.instantRedeemWindowSeconds c.instantUsedUsdc c.instantUsedPrevUsdc).effectiveUsed) (b := out)
      (show _ < 2 ^ 64 by simp only [word_uint64]; omega)
    have hsum := checkedAdd_eq_some.1 hnew
    simp only [word_uint64] at hsum
    refine ⟨⟨newUsed, hnew, UInt64.le_iff_toNat_le.2 ?_⟩, UInt64.le_iff_toNat_le.2 ?_⟩
    · omega
    · omega
  · intro hbps
    obtain ⟨fee, toUser, hfee, hnet⟩ := exists_net (effectivePremiumBps_le hbps) gross
    have hsum := checkedSub_eq_some.1 hnet
    obtain ⟨out, hout⟩ := exists_checkedAdd (a := toUser) (b := feeRouted c fee)
      (lt_of_le_of_lt (Nat.add_le_add_left (feeRouted_le c fee) _) (hsum ▸ Word.toNat_lt gross))
    exact ⟨fee, toUser, out, hfee, hnet, hout⟩

/-- Redemptions are open, and the premium stays in the treasury. -/
def promiseConfig : ConfigAccount :=
  { slidConfig with paused := false, redemptionsEnabled := true, feeRoutingDisabled := true }

def lapsingExemption : FeeExemptAccount := ⟨Reference.user, 2, 0, Reference.admin, 50000⟩

/-- Between the two times the exemption expires and a window ends. -/
theorem promised_instant_served_lapsing :
    (checkedAdd (rollWindow 100000 promiseConfig.instantWindowStart
        promiseConfig.instantRedeemWindowSeconds promiseConfig.instantUsedUsdc
        promiseConfig.instantUsedPrevUsdc).effectiveUsed 2970).any
        (· ≤ promiseConfig.instantRedeemBudgetUsdc) = true ∧
      (2970 : UInt64) ≤ 3000 := by
  obtain ⟨⟨newUsed, hnew, hle⟩, htreasury⟩ := (@promised_instant_served promiseConfig 2000 100000 _
    3000 3000 (some lapsingExemption) Reference.user none (by decide) (by decide)
    (by decide +kernel)).1 30 2970 2970 (by decide +kernel) (by decide +kernel) (by decide +kernel)
  refine ⟨?_, htreasury⟩
  rw [hnew]
  exact decide_eq_true hle

/-- An expiry that a double rounds down. -/
def farExemption : FeeExemptAccount := { lapsingExemption with expiresAt := 2 ^ 53 + 1 }

/-- The client takes the rounded expiry for passed and subtracts a premium that the program does
not charge yet. -/
theorem promised_instant_refused_farExemption :
    PublicApp.classifyRedeem promiseConfig 30000000000 20000000010 (2 ^ 53) none
        (some (PublicApp.effectivePremiumBps promiseConfig.premiumBpsRedeem.toNat
          (some farExemption.flags) (some (PublicApp.decodeFeeExemptExpiry farExemption)) .redeem
          (2 ^ 53))) = some .instant ∧
      effectivePremiumBps promiseConfig.premiumBpsRedeem (some farExemption) Reference.user .redeem
        (2 ^ 53) = 0 ∧
      feeFromAmount 20000000010 0 = .ok 0 ∧
      promiseConfig.instantRedeemBudgetUsdc < (rollWindow (2 ^ 53) promiseConfig.instantWindowStart
        promiseConfig.instantRedeemWindowSeconds promiseConfig.instantUsedUsdc
        promiseConfig.instantUsedPrevUsdc).effectiveUsed + 20000000010 := by
  decide +kernel

end Promise

end DominionSilver
