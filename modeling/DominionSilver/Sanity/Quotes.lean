import DominionSilver.Sanity.Inversion

/-! The quotes of the priced instructions in natural numbers: the premium rounds
up, what is paid out rounds down, and the two legs add up. -/

namespace DominionSilver

open Checked

/-- The premium on `amount` at `bps`, rounded up. -/
def premium (amount bps : ℕ) : ℕ := (amount * bps + 9999) / 10000

theorem feeFromAmount_ok {amount fee : UInt64} {bps : UInt16}
    (h : feeFromAmount amount bps = .ok fee) : fee.toNat = premium amount.toNat bps.toNat := by
  unfold feeFromAmount at h
  split_ifs at h with h0
  · obtain rfl := Except.ok.inj h
    simp [premium, h0]
  · simp only [bind_ok, orOverflow_ok, checkedU128_eq_some, tryFrom_eq_some, word_uint64] at h
    obtain ⟨num, ⟨-, rfl⟩, raised, ⟨-, rfl⟩, hfee⟩ := h
    exact hfee

theorem premium_le {amount bps : ℕ} (h : bps ≤ 10000) : premium amount bps ≤ amount := by
  have hle := Nat.mul_le_mul_left amount h
  unfold premium
  omega

theorem exists_feeFromAmount {amount : UInt64} {bps : UInt16} (h : bps ≤ 10000) :
    ∃ fee, feeFromAmount amount bps = .ok fee ∧ fee.toNat ≤ amount.toNat := by
  have hamount := amount.toNat_lt
  have hle := @premium_le amount.toNat _ (UInt16.le_iff_toNat_le.1 h)
  have hnum : amount.toNat * bps.toNat < 2 ^ 64 * 2 ^ 16 :=
    Nat.mul_lt_mul'' hamount bps.toNat_lt
  obtain ⟨fee, hfee⟩ : ∃ fee, tryFrom UInt64 (premium amount.toNat bps.toNat) = some fee :=
    ⟨UInt64.ofNat _, tryFrom_eq_some.2 (Word.toNat_ofNat _ (hle.trans_lt hamount))⟩
  refine ⟨if bps = 0 then 0 else fee, ?_, ?_⟩
  · unfold feeFromAmount
    split_ifs with h0
    · rfl
    · simp only [bind_ok, orOverflow_ok, checkedU128_eq_some, BPS_DENOM]
      exact ⟨_, ⟨by omega, rfl⟩, _, ⟨by omega, rfl⟩, hfee⟩
  · split_ifs
    · exact Nat.zero_le _
    · exact (tryFrom_eq_some.1 hfee).trans_le hle

theorem net_eq {amount fee net : UInt64} {bps : UInt16} (hfee : feeFromAmount amount bps = .ok fee)
    (hnet : checkedSub amount fee = some net) :
    net.toNat = amount.toNat - premium amount.toNat bps.toNat := by
  have hsub := checkedSub_eq_some.1 hnet
  simp only [word_uint64] at hsub
  rw [← feeFromAmount_ok hfee]
  omega

theorem exists_net {bps : UInt16} (h : bps ≤ 10000) (amount : UInt64) :
    ∃ fee net : UInt64, feeFromAmount amount bps = .ok fee ∧ checkedSub amount fee = some net := by
  obtain ⟨fee, hfee, hle⟩ := @exists_feeFromAmount amount bps h
  obtain ⟨net, hnet⟩ := exists_checkedSub (a := amount) (b := fee) hle
  exact ⟨fee, net, hfee, hnet⟩

theorem feeRouted_le (c : ConfigAccount) (feeUsdc : UInt64) :
    (feeRouted c feeUsdc).toNat ≤ feeUsdc.toNat := by
  unfold feeRouted
  split_ifs
  · exact Nat.zero_le _
  · exact le_rfl

theorem effectivePremiumBps_le {configured bound : UInt16} {exemption : Option FeeExemptAccount}
    {signer : Pubkey} {side : Side} {now : ℤ} (h : configured ≤ bound) :
    effectivePremiumBps configured exemption signer side now ≤ bound := by
  unfold effectivePremiumBps
  split
  · split_ifs
    · exact UInt16.le_iff_toNat_le.2 (Nat.zero_le _)
    · exact h
  · exact h

theorem mintSilvOut_ok {amount out : UInt64} {price : ℕ} (h : mintSilvOut amount price = .ok out) :
    0 < price ∧ out.toNat = amount.toNat * 1000000000 / price := by
  simp only [mintSilvOut, bind_ok, require_ok, orOverflow_ok, checkedU128_eq_some, tryFrom_eq_some,
    word_uint64, exists_unit] at h
  obtain ⟨hp, num, ⟨-, rfl⟩, hout⟩ := h
  exact ⟨hp, hout⟩

theorem silvToUsdcAtOracle_ok {amount out : UInt64} {price : ℕ}
    (h : silvToUsdcAtOracle amount price = .ok out) :
    out.toNat = amount.toNat * price / 1000000000 := by
  simp only [silvToUsdcAtOracle, bind_ok, orOverflow_ok, checkedU128_eq_some, tryFrom_eq_some,
    word_uint64] at h
  obtain ⟨num, ⟨-, rfl⟩, hout⟩ := h
  exact hout

theorem exists_word {n : ℕ} {b : UInt64} (h : n ≤ b.toNat) : ∃ a : UInt64, a.toNat = n :=
  ⟨_, @Word.toNat_ofNat UInt64 _ n (h.trans_lt b.toNat_lt)⟩

theorem rolledCurrent_le (now start : ℤ) (windowSeconds : UInt32) (used prev : UInt64) :
    (rollWindow now start windowSeconds used prev).rolledCurrent.toNat ≤
      (rollWindow now start windowSeconds used prev).effectiveUsed.toNat := by
  simp only [rollWindow]
  split_ifs
  · exact le_rfl
  · simp only [← word_uint64, toNat_saturatingAdd]
    exact le_min (Nat.le_add_right _ _) (Nat.le_sub_one_of_lt (Word.toNat_lt _))

/-- What a mint quote says. -/
structure MintQuoted (c : ConfigAccount) (premiumBps : UInt16) (price : ℕ)
    (supply amountUsdc minSilvOut : UInt64) (q : MintQuote) : Prop where
  fee : q.feeUsdc.toNat = premium amountUsdc.toNat premiumBps.toNat
  net : q.netUsdc.toNat + q.feeUsdc.toNat = amountUsdc.toNat
  net_pos : 0 < q.netUsdc.toNat
  price_pos : 0 < price
  out : q.silvOut.toNat = q.netUsdc.toNat * 1000000000 / price
  out_pos : 0 < q.silvOut.toNat
  slippage : minSilvOut ≤ q.silvOut
  cap : supply.toNat + q.silvOut.toNat ≤ c.maxSilvSupply.toNat
  routed : q.feeRouted = feeRouted c q.feeUsdc
  legs : q.toTreasury.toNat + q.feeRouted.toNat = amountUsdc.toNat

theorem quoteMint_ok {c : ConfigAccount} {premiumBps : UInt16} {price : ℕ}
    {supply amountUsdc minSilvOut : UInt64} {q : MintQuote}
    (h : quoteMint c premiumBps price supply amountUsdc minSilvOut = .ok q) :
    MintQuoted c premiumBps price supply amountUsdc minSilvOut q := by
  simp only [quoteMint, bind_ok, require_ok, orOverflow_ok, checkedAdd_eq_some, checkedSub_eq_some,
    word_uint64, exists_unit, pure_ok] at h
  obtain ⟨fee, hfee, net, hnet, hpos, out, hout, hout0, hslip, post, hpost, hcap, toTreasury, hleg,
    rfl⟩ := h
  obtain ⟨hp, ho⟩ := mintSilvOut_ok hout
  have hcap := UInt64.le_iff_toNat_le.1 hcap
  exact ⟨feeFromAmount_ok hfee, hnet, UInt64.lt_iff_toNat_lt.1 hpos, hp, ho,
    UInt64.lt_iff_toNat_lt.1 hout0, hslip, hpost ▸ hcap, rfl, hleg⟩

theorem quoteMint_steps {c : ConfigAccount} {premiumBps : UInt16} {price : ℕ}
    {supply amountUsdc minSilvOut : UInt64} {q : MintQuote}
    (h : quoteMint c premiumBps price supply amountUsdc minSilvOut = .ok q) :
    feeFromAmount amountUsdc premiumBps = .ok q.feeUsdc ∧
      checkedSub amountUsdc q.feeUsdc = some q.netUsdc ∧
      mintSilvOut q.netUsdc price = .ok q.silvOut := by
  simp only [quoteMint, bind_ok, require_ok, orOverflow_ok, exists_unit, pure_ok] at h
  obtain ⟨fee, hfee, net, hnet, -, out, hout, -, -, -, -, -, -, -, rfl⟩ := h
  exact ⟨hfee, hnet, hout⟩

/-- What a redeem quote says. -/
structure RedeemQuoted (c : ConfigAccount) (premiumBps : UInt16) (price : ℕ)
    (treasuryBalance : UInt64) (now : ℤ) (amountSilv minUsdcOut : UInt64) (q : RedeemQuote) :
    Prop where
  gross : q.grossUsdc.toNat = amountSilv.toNat * price / 1000000000
  gross_pos : 0 < q.grossUsdc.toNat
  least : c.minOperationUsdc ≤ q.grossUsdc
  fee : q.feeUsdc.toNat = premium q.grossUsdc.toNat premiumBps.toNat
  net : q.toUserUsdc.toNat + q.feeUsdc.toNat = q.grossUsdc.toNat
  toUser_pos : 0 < q.toUserUsdc.toNat
  slippage : minUsdcOut ≤ q.toUserUsdc
  routed : q.feeRouted = feeRouted c q.feeUsdc
  total : q.totalOut.toNat = q.toUserUsdc.toNat + q.feeRouted.toNat
  budget : ∀ win, win = rollWindow now c.instantWindowStart c.instantRedeemWindowSeconds
      c.instantUsedUsdc c.instantUsedPrevUsdc →
    win.effectiveUsed.toNat + q.totalOut.toNat ≤ c.instantRedeemBudgetUsdc.toNat ∧
      q.windowStart = win.newWindowStart ∧ q.usedPrevUsdc = win.rolledPrev ∧
      q.usedUsdc.toNat = win.rolledCurrent.toNat + q.totalOut.toNat
  solvent : q.totalOut ≤ treasuryBalance

theorem quoteRedeem_ok {c : ConfigAccount} {premiumBps : UInt16} {price : ℕ}
    {treasuryBalance : UInt64} {now : ℤ} {amountSilv minUsdcOut : UInt64} {q : RedeemQuote}
    (h : quoteRedeem c premiumBps price treasuryBalance now amountSilv minUsdcOut = .ok q) :
    RedeemQuoted c premiumBps price treasuryBalance now amountSilv minUsdcOut q := by
  simp only [quoteRedeem, bind_ok, require_ok, orOverflow_ok, checkedAdd_eq_some,
    checkedSub_eq_some, word_uint64, exists_unit, pure_ok] at h
  obtain ⟨gross, hgross, hpos, hleast, fee, hfee, toUser, hnet, htu, hslip, total, htotal, newUsed,
    hnew, hbudget, hsolvent, used, hused, rfl⟩ := h
  have hbudget := UInt64.le_iff_toNat_le.1 hbudget
  refine ⟨silvToUsdcAtOracle_ok hgross, UInt64.lt_iff_toNat_lt.1 hpos, hleast,
    feeFromAmount_ok hfee, hnet, UInt64.lt_iff_toNat_lt.1 htu, hslip, rfl, htotal, ?_, hsolvent⟩
  rintro win rfl
  exact ⟨hnew ▸ hbudget, rfl, rfl, hused⟩

theorem quoteRedeem_steps {c : ConfigAccount} {premiumBps : UInt16} {price : ℕ}
    {treasuryBalance : UInt64} {now : ℤ} {amountSilv minUsdcOut : UInt64} {q : RedeemQuote}
    (h : quoteRedeem c premiumBps price treasuryBalance now amountSilv minUsdcOut = .ok q) :
    silvToUsdcAtOracle amountSilv price = .ok q.grossUsdc ∧
      feeFromAmount q.grossUsdc premiumBps = .ok q.feeUsdc ∧
      checkedSub q.grossUsdc q.feeUsdc = some q.toUserUsdc := by
  simp only [quoteRedeem, bind_ok, require_ok, orOverflow_ok, exists_unit, pure_ok] at h
  obtain ⟨gross, hgross, -, -, fee, hfee, toUser, hnet, -, -, -, -, -, -, -, -, -, -, rfl⟩ := h
  exact ⟨hgross, hfee, hnet⟩

end DominionSilver
