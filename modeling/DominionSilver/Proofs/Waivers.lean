import DominionSilver.Proofs.Removal
import DominionSilver.Proofs.Routing

/-! A trade that pays no premium, though one is configured. The premium rounds up, so only a live
exemption of the wallet waives it, and an exemption is what the last step on it wrote: a grant that
the admin of the time signed, for the side and for a term that the trade falls into. -/

namespace DominionSilver

open Checked Bytes Tokens

def MovesExemption (u : Pubkey) (r : Entry) : Prop :=
  ∃ c, r.event = .call c ∧ ((∃ flags expiresAt, c.ix = .setFeeExempt u flags expiresAt) ∨
    c.ix = .removeFeeExempt u)

/-- The admin of the time exempts `u` on `side`, for a term that has begun by `t` and has not ended
then. -/
def ExemptsAt (u : Pubkey) (side : Side) (t : ℤ) (r : Entry) : Prop :=
  ∃ c flags expiresAt, r.event = .call c ∧ c.ix = .setFeeExempt u flags expiresAt ∧
    c.signer = r.pre.config.admin ∧ side.isSetIn flags = true ∧ c.now ≤ t ∧ t < expiresAt ∧
    expiresAt ≤ c.now + MAX_FEE_EXEMPT_TERM_SECONDS

/-- The call trades on `side` for no fee, where a premium is configured for it. -/
def Waived (rt : Runtime) (c : Call) (w : World) : Side → Prop
  | .mint => w.config.premiumBpsMint ≠ 0 ∧ ∃ amountUsdc minSilvOut accounts,
      c.ix = .mintSilv amountUsdc minSilvOut accounts ∧
      mintFee amountUsdc accounts c.now c.signer w = .ok 0
  | .redeem => w.config.premiumBpsRedeem ≠ 0 ∧ ∃ amountSilv minUsdcOut accounts,
      c.ix = .redeemSilv amountSilv minUsdcOut accounts ∧
      redeemFee rt amountSilv accounts c.now c.signer w = .ok 0

section Fees

variable {amount : UInt64} {configured : UInt16} {supplied : Bool} {e? : Option FeeExemptAccount}
  {exempt : Option FeeExemptAccount} {u : Pubkey} {side : Side} {now : ℤ}

theorem premium_pos {amount bps : ℕ} (ha : 0 < amount) (hb : 0 < bps) : 0 < premium amount bps := by
  have h : 1 ≤ amount * bps := Nat.mul_pos ha hb
  unfold premium
  omega

theorem exempt_of_no_fee (hex : optionalAccount supplied e? = .ok exempt) (hpos : 0 < amount)
    (hc : configured ≠ 0)
    (h : feeFromAmount amount (effectivePremiumBps configured exempt u side now) = .ok 0) :
    ∃ e, e? = some e ∧ e.exempts u side now = true := by
  have hbps : effectivePremiumBps configured exempt u side now = 0 := by
    by_contra hne
    have hfee := feeFromAmount_ok h
    have := premium_pos (UInt64.lt_iff_toNat_lt.1 hpos)
      (UInt16.lt_iff_toNat_lt.1 (UInt16.pos_iff_ne_zero.2 hne))
    rw [← hfee] at this
    exact absurd this (Nat.lt_irrefl 0)
  unfold effectivePremiumBps at hbps
  split at hbps
  · next e =>
    split_ifs at hbps with he
    · exact ⟨e, optionalAccount_some hex, he⟩
    · exact absurd hbps hc
  · exact absurd hbps hc

end Fees

section Steps

variable {rt : Runtime} {w w' : World} {e : Event} {u : Pubkey} {acc : FeeExemptAccount}

def WritesExemption (u : Pubkey) (acc : FeeExemptAccount) (r : Entry) : Prop :=
  ∃ c, r.event = .call c ∧ c.ix = .setFeeExempt u acc.flags acc.expiresAt ∧
    c.signer = r.pre.config.admin ∧ acc.expiresAt ≤ c.now + MAX_FEE_EXEMPT_TERM_SECONDS

theorem exemption_step (h : Step rt w e w') (ha : w'.feeExempts.lookup u = some acc) :
    WritesExemption u acc ⟨w, e, w'⟩ ∨
      (w.feeExempts.lookup u = some acc ∧ ¬ MovesExemption u ⟨w, e, w'⟩) := by
  rcases step_cases h with ⟨⟨now, hnow, signer, ix⟩, rfl, -, he⟩ | ⟨rfl, he⟩
  · cases he with
    | @setFeeExempt wallet flags expiresAt addedAt admin _ _ term =>
      rcases Accounts.lookup_insert_cases ha with ⟨rfl, rfl⟩ | ⟨hu, ha⟩
      · have hlow : -2 ^ 63 ≤ now + MAX_FEE_EXEMPT_TERM_SECONDS :=
          hnow.1.trans (Int.le_add_of_nonneg_right (by decide))
        exact .inl ⟨_, rfl, rfl, admin.symm, term.trans (saturatingI64_le hlow)⟩
      · refine .inr ⟨ha, ?_⟩
        rintro ⟨c, ⟨⟩, ⟨_, _, ⟨⟩⟩ | ⟨⟨⟩⟩⟩
        exact hu rfl
    | @removeFeeExempt wallet =>
      obtain ⟨hu, ha⟩ := Accounts.lookup_of_erase ha
      refine .inr ⟨ha, ?_⟩
      rintro ⟨c, ⟨⟩, ⟨_, _, ⟨⟩⟩ | ⟨⟨⟩⟩⟩
      exact hu rfl
    | execute _ _ _ applied =>
      refine .inr ⟨?_, by rintro ⟨c, ⟨⟩, ⟨_, _, ⟨⟩⟩ | ⟨⟨⟩⟩⟩⟩
      cases applied <;> exact ha
    | _ => exact .inr ⟨ha, by rintro ⟨c, ⟨⟩, ⟨_, _, ⟨⟩⟩ | ⟨⟨⟩⟩⟩⟩
  · rw [he.feeExempts] at ha
    exact .inr ⟨ha, by rintro ⟨c, ⟨⟩, -⟩⟩

theorem exempt_of_waived {c : Call} {side : Side} (h : exec rt c w = .ok w')
    (hw : Waived rt c w side) :
    ∃ acc, w.feeExempts.lookup c.signer = some acc ∧ acc.exempts c.signer side c.now = true := by
  cases side with
  | mint =>
    obtain ⟨hc, amountUsdc, minSilvOut, accounts, hix, hfee⟩ := hw
    have he := effect_of_call h hix
    cases he with
    | mintSilv minted =>
      simp only [mintFee, bind_ok] at hfee
      obtain ⟨exempt, hex, hfee⟩ := hfee
      exact exempt_of_no_fee hex minted.positive hc hfee
  | redeem =>
    obtain ⟨hc, amountSilv, minUsdcOut, accounts, hix, hfee⟩ := hw
    have he := effect_of_call h hix
    cases he with
    | @redeemSilv _ _ _ price q _ _ _ _ _ redeemed =>
      obtain ⟨exempt, treasury, hex, -, hq⟩ := redeemed.quote
      obtain ⟨-, hfee', -⟩ := quoteRedeem_steps hq
      rw [redeemed.charge] at hfee
      rw [Except.ok.inj hfee] at hfee'
      exact exempt_of_no_fee hex (UInt64.lt_iff_toNat_lt.2 (quoteRedeem_ok hq).gross_pos) hc hfee'

end Steps

/-- Over every run whose clock does not go back, each trade whose premium is waived follows a grant
that covers it, with no other step on the wallet's exemption in between. -/
theorem waived_premium_granted {rt : Runtime} {now₀ : ℤ} {w₀ w : World} {es : List Entry}
    (h₀ : Initialized rt now₀ w₀) (run : Run rt w₀ es w) (hclock : ClockMonotone now₀ es) :
    ∀ before r after, es = before ++ r :: after → ∀ c side, r.event = .call c →
      Waived rt c r.pre side →
        Trace.Since (ExemptsAt c.signer side c.now) (MovesExemption c.signer) before := by
  rintro before ⟨pre, event, post⟩ after rfl c side rfl hw
  obtain ⟨hrun, hs, -⟩ := run.split
  obtain ⟨acc, hacc, hex⟩ := exempt_of_waived hs hw
  have hnone : ¬ w₀.feeExempts.lookup c.signer = some acc := by
    obtain ⟨args, g, t, m, d⟩ := deployed_of_initialized h₀
    obtain ⟨usdc, -, rfl⟩ := d.state
    simp
  have hsince := hrun.since (A := fun w => w.feeExempts.lookup c.signer = some acc) hnone
    exemption_step hacc
  obtain ⟨-, hbefore, -⟩ := hclock.split rfl
  simp only [FeeExemptAccount.exempts, FeeExemptAccount.isExpired, Bool.and_eq_true,
    Bool.not_eq_true', Bool.or_eq_false_iff, decide_eq_true_eq, decide_eq_false_iff_not,
    Int.not_le] at hex
  refine hsince.imp ?_
  rintro x hx ⟨d, hd, hix, hs, hterm⟩
  exact ⟨d, _, _, hd, hix, hs, hex.1.2, hbefore x hx d hd, hex.2.2, hterm⟩

def waivedCalls : List Call :=
  [Reference.unpauseCall,
    Reference.callAt 2500 Reference.admin (.setFeeExempt Reference.user SIDE_MINT_BIT 9000),
    Reference.callAt 3000 Reference.user (.mintSilv 100000000 0
      { Reference.pricedAt 2999000000 with suppliesFeeExempt := true })]

theorem waived_premium_granted_waivedCalls :
    Trace.Since (ExemptsAt Reference.user .mint 3000) (MovesExemption Reference.user)
      (Reference.entries Reference.runtime Reference.start (waivedCalls.take 2)) :=
  waived_premium_granted Reference.initialized_start
    (@Reference.run_of_succeeds _ _ waivedCalls (by decide +kernel))
    (by unfold ClockMonotone; decide +kernel) _
    ⟨_, .call (Reference.callAt 3000 Reference.user (.mintSilv 100000000 0
      { Reference.pricedAt 2999000000 with suppliesFeeExempt := true })), _⟩ _ rfl _ .mint rfl
    ⟨by decide +kernel, _, _, _, rfl, by decide +kernel⟩

end DominionSilver
