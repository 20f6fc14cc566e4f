import DominionSilver.Library.Legs
import DominionSilver.Proofs.Money
import DominionSilver.Sanity.Reference

/-! The switch for fee routing moves the premium and nothing else. Two states that differ in it
alone are given the same operation: a mint issues the same, takes the same from the user and brings
the two vaults the same; a redemption pays the same, and without routing the treasury and the
window keep the premium. What the switch does decide is whether a mint or a redemption needs the fee
vault to be open for transfers, which is what it is for. -/

namespace DominionSilver

open Checked Bytes Tokens

/-- The same configuration with fee routing on or off. -/
def ConfigAccount.withRouting (c : ConfigAccount) (enabled : Bool) : ConfigAccount :=
  { c with feeRoutingDisabled := !enabled }

def World.withRouting (w : World) (enabled : Bool) : World :=
  { w with config := w.config.withRouting enabled }

/-- The `fee_usdc` of a mint. -/
def mintFee (amountUsdc : UInt64) (accounts : PricedAccounts) (now : ℤ) (user : Pubkey)
    (w : World) : Result UInt64 := do
  let feeExempt ← optionalAccount accounts.suppliesFeeExempt (w.feeExempts.lookup user)
  feeFromAmount amountUsdc
    (effectivePremiumBps w.config.premiumBpsMint feeExempt user .mint now)

/-- The `fee_usdc` of a redemption. -/
def redeemFee (rt : Runtime) (amountSilv : UInt64) (accounts : PricedAccounts) (now : ℤ)
    (user : Pubkey) (w : World) : Result UInt64 := do
  let feeExempt ← optionalAccount accounts.suppliesFeeExempt (w.feeExempts.lookup user)
  let price ← readSilverPriceLazer rt accounts.lazer w.config now
  let grossUsdc ← silvToUsdcAtOracle amountSilv price.normalizedPriceScaled
  feeFromAmount grossUsdc
    (effectivePremiumBps w.config.premiumBpsRedeem feeExempt user .redeem now)

section Quotes

variable {c : ConfigAccount} {premiumBps : UInt16} {price : ℕ}

theorem quoteMint_rerouted {on off : Bool} {supply amountUsdc minSilvOut : UInt64} {q : MintQuote}
    (h : quoteMint (c.withRouting on) premiumBps price supply amountUsdc minSilvOut = .ok q) :
    ∃ q', quoteMint (c.withRouting off) premiumBps price supply amountUsdc minSilvOut = .ok q' ∧
      q'.feeUsdc = q.feeUsdc ∧ q'.silvOut = q.silvOut := by
  simp only [quoteMint, bind_ok, require_ok, orOverflow_ok, exists_unit, pure_ok] at h ⊢
  obtain ⟨fee, hfee, net, hsub, hpos, out, hout, hout0, hslip, post, hpost, hcap, toTreasury, -,
    rfl⟩ := h
  have hle : (feeRouted (c.withRouting off) fee).toNat ≤ amountUsdc.toNat := by
    have hnet := checkedSub_eq_some.1 hsub
    simp only [word_uint64] at hnet
    exact (feeRouted_le _ fee).trans (Nat.le.intro ((Nat.add_comm _ _).trans hnet))
  obtain ⟨rest, hrest⟩ := exists_checkedSub (a := amountUsdc)
    (b := feeRouted (c.withRouting off) fee) hle
  exact ⟨_, ⟨fee, hfee, net, hsub, hpos, out, hout, hout0, hslip, post, hpost, hcap, rest, hrest,
    rfl⟩, rfl, rfl⟩

theorem quoteMint_legs_on {supply amountUsdc minSilvOut : UInt64} {q : MintQuote}
    (h : quoteMint (c.withRouting true) premiumBps price supply amountUsdc minSilvOut = .ok q) :
    q.feeRouted = q.feeUsdc ∧ q.toTreasury.toNat + q.feeUsdc.toNat = amountUsdc.toNat := by
  have hrouted : q.feeRouted = q.feeUsdc := (quoteMint_ok h).routed
  exact ⟨hrouted, hrouted ▸ (quoteMint_ok h).legs⟩

theorem quoteMint_legs_off {supply amountUsdc minSilvOut : UInt64} {q : MintQuote}
    (h : quoteMint (c.withRouting false) premiumBps price supply amountUsdc minSilvOut = .ok q) :
    q.feeRouted = 0 ∧ q.toTreasury = amountUsdc := by
  have hrouted : q.feeRouted = 0 := (quoteMint_ok h).routed
  refine ⟨hrouted, UInt64.toNat_inj.1 ?_⟩
  rw [← (quoteMint_ok h).legs, hrouted, UInt64.toNat_zero, Nat.add_zero]

theorem exists_lighter {a b b' c : UInt64} (h : c.toNat = a.toNat + b.toNat)
    (hle : b'.toNat ≤ b.toNat) : ∃ c' : UInt64, c'.toNat = a.toNat + b'.toNat ∧ c' ≤ c := by
  have hsum : a.toNat + b'.toNat ≤ c.toNat := h ▸ Nat.add_le_add_left hle _
  obtain ⟨c', hc'⟩ := exists_word hsum
  exact ⟨c', hc', UInt64.le_iff_toNat_le.2 (hc' ▸ hsum)⟩

/-- A redeem quote that stands with routing on stands with it off, and is lighter by the premium. -/
theorem quoteRedeem_rerouted {treasuryBalance : UInt64} {now : ℤ} {amountSilv minUsdcOut : UInt64}
    {q : RedeemQuote} (h : quoteRedeem (c.withRouting true) premiumBps price treasuryBalance now
      amountSilv minUsdcOut = .ok q) :
    ∃ q', quoteRedeem (c.withRouting false) premiumBps price treasuryBalance now amountSilv
        minUsdcOut = .ok q' ∧ q'.grossUsdc = q.grossUsdc ∧ q'.feeUsdc = q.feeUsdc ∧
      q'.toUserUsdc = q.toUserUsdc ∧ q'.windowStart = q.windowStart ∧
      q'.usedPrevUsdc = q.usedPrevUsdc ∧
      q'.usedUsdc.toNat + q.feeUsdc.toNat = q.usedUsdc.toNat := by
  simp only [quoteRedeem, bind_ok, require_ok, orOverflow_ok, checkedAdd_eq_some, word_uint64,
    exists_unit, pure_ok] at h ⊢
  obtain ⟨gross, hgross, hpos, hleast, fee, hfee, toUser, hnet, htu, hslip, total, htotal, newUsed,
    hnew, hbudget, hsolvent, used, hused, rfl⟩ := h
  have hon : feeRouted (c.withRouting true) fee = fee := rfl
  have hoff : feeRouted (c.withRouting false) fee = 0 := rfl
  rw [hon] at htotal
  have hlighter : toUser.toNat ≤ total.toNat := by omega
  obtain ⟨newUsed', hnew', hless⟩ := exists_lighter hnew hlighter
  obtain ⟨used', hused', -⟩ := exists_lighter hused hlighter
  refine ⟨_, ⟨gross, hgross, hpos, hleast, fee, hfee, toUser, hnet, htu, hslip, toUser, ?_,
    newUsed', hnew', UInt64.le_trans hless hbudget, ?_, used', hused', rfl⟩, rfl, rfl, rfl, rfl,
    rfl, ?_⟩
  · rw [hoff, UInt64.toNat_zero, Nat.add_zero]
  · exact UInt64.le_trans (UInt64.le_iff_toNat_le.2 hlighter) hsolvent
  · change used'.toNat + fee.toNat = used.toNat
    rw [hused', hused, htotal]
    exact Nat.add_assoc _ _ _

end Quotes

section Statement

variable (rt : Runtime)

/-- What the USDC token program and the associated token program promise in a state. -/
structure UsdcProgram (frozen : Pubkey → Prop) (decimals : Pubkey → UInt8 → Prop) (w : World) :
    Prop where
  transfers : OwnerTransfers rt.tokens frozen decimals
  capped : Capped w.usdc
  feeVaultMint : ∀ a, w.usdc.lookup (w.feeVault rt) = some a → a.mint = w.config.usdcMint

/-- The user has made himself the delegate of his USDC account. -/
def SelfDelegate (w : World) (user : Pubkey) : Prop :=
  ∃ a, w.usdc.lookup (rt.ata user w.config.usdcMint) = some a ∧ a.delegate = some user

/-- Two mints issue the same, take the same from the user and bring the vaults the same. -/
structure SameMint (user : Pubkey) (on off : World) : Prop where
  issued : on.silvMint = off.silvMint
  holdings : on.silv = off.silv
  debited : balance on.usdc (rt.ata user on.config.usdcMint) =
    balance off.usdc (rt.ata user off.config.usdcMint)
  received : vaultTotal rt on = vaultTotal rt off

/-- Two redemptions pay the same, and without routing the premium stays in the treasury and out of
the window. -/
structure PremiumKept (user : Pubkey) (feeUsdc : UInt64) (on off : World) : Prop where
  burned : on.silvMint = off.silvMint
  holdings : on.silv = off.silv
  paid : balance on.usdc (rt.ata user on.config.usdcMint) =
    balance off.usdc (rt.ata user off.config.usdcMint)
  treasury : off.treasuryBalance = on.treasuryBalance + feeUsdc.toNat
  window : off.config.instantUsedUsdc.toNat + feeUsdc.toNat = on.config.instantUsedUsdc.toNat

/-- A mint is accepted with routing on where it is with routing off, save that a premium needs the
fee vault to be open, and it comes to the same. -/
structure MintNeutral (w : World) (c : Call) (amountUsdc : UInt64) (accounts : PricedAccounts) :
    Prop where
  accepted : ∀ frozen decimals, UsdcProgram rt frozen decimals w → ¬ SelfDelegate rt w c.signer →
    ((∃ on, exec rt c (w.withRouting true) = .ok on) ↔
      (∃ off, exec rt c (w.withRouting false) = .ok off) ∧
        (frozen (w.feeVault rt) → mintFee amountUsdc accounts c.now c.signer w = .ok 0))
  same : ∀ on off, exec rt c (w.withRouting true) = .ok on →
    exec rt c (w.withRouting false) = .ok off → SameMint rt c.signer on off

/-- A redemption that is accepted with routing on is accepted with it off. -/
def RedeemNeutral (w : World) (c : Call) (amountSilv : UInt64) (accounts : PricedAccounts) : Prop :=
  ∀ on, exec rt c (w.withRouting true) = .ok on → ∃ off feeUsdc,
    exec rt c (w.withRouting false) = .ok off ∧
      redeemFee rt amountSilv accounts c.now c.signer w = .ok feeUsdc ∧
      PremiumKept rt c.signer feeUsdc on off

end Statement

section Mint

variable {rt : Runtime} {frozen : Pubkey → Prop} {decimals : Pubkey → UInt8 → Prop} {w : World}
  {now : ℤ} {user : Pubkey} {amountUsdc minSilvOut : UInt64} {accounts : PricedAccounts}
  {price : LazerPriceResult} {q : MintQuote} {lastPrice : ℕ} {lastAt : ℤ}
  {usdc silv : Ledger Pubkey} {silvMint : Mint Pubkey}

theorem Vaults.withRouting (h : Vaults rt w) (enabled : Bool) : Vaults rt (w.withRouting enabled) :=
  ⟨h.treasury, h.sound⟩

/-- The legs of a mint that pays `fee` to the fee vault. -/
def MintPaid (rt : Runtime) (w : World) (user : Pubkey) (toTreasury fee : UInt64)
    (usdc : Ledger Pubkey) : Prop :=
  ∃ usdc₁, rt.tokens.transferChecked w.usdc w.config.usdcMint (rt.ata user w.config.usdcMint)
      w.config.usdcTreasury user toTreasury w.usdcDecimals = some usdc₁ ∧
    transferIfPositive rt w usdc₁ (rt.ata user w.config.usdcMint) (w.feeVault rt) user fee =
      .ok usdc

theorem transferIfPositive_zero {l : Ledger Pubkey} {src dst authority : Pubkey} :
    transferIfPositive rt w l src dst authority 0 = .ok l := rfl

theorem mintPaid_zero {amount : UInt64} :
    MintPaid rt w user amount 0 usdc ↔ rt.tokens.transferChecked w.usdc w.config.usdcMint
      (rt.ata user w.config.usdcMint) w.config.usdcTreasury user amount w.usdcDecimals =
        some usdc := by
  simp only [MintPaid, transferIfPositive_zero, Except.ok.injEq, exists_eq_right]

/-- The two legs can be paid where the whole can be paid and the fee vault takes its part. -/
theorem mintPaid_iff {toTreasury fee amount : UInt64} (hw : Vaults rt w)
    (hspl : UsdcProgram rt frozen decimals w) (hu : rt.canSign user = true)
    (hself : ¬ SelfDelegate rt w user)
    (hsource : ∃ a, w.usdc.lookup (rt.ata user w.config.usdcMint) = some a ∧ a.owner = user)
    (hvault : ∃ a, w.usdc.lookup (w.feeVault rt) = some a ∧ a.owner = rt.feeVaultPda)
    (hlegs : toTreasury.toNat + fee.toNat = amount.toNat) :
    (∃ usdc, MintPaid rt w user toTreasury fee usdc) ↔
      (∃ usdc, MintPaid rt w user amount 0 usdc) ∧ (frozen (w.feeVault rt) → fee = 0) := by
  obtain ⟨x, hx, rfl⟩ := hsource
  obtain ⟨y, hy, -⟩ := hvault
  obtain ⟨hut, huf⟩ := hw.user_apart hu
  by_cases hfee : fee = 0
  · subst hfee
    obtain rfl : toTreasury = amount := UInt64.toNat_inj.1 hlegs
    exact ⟨fun h => ⟨h, fun _ => rfl⟩, fun h => h.1⟩
  · have hpos : 0 < fee := UInt64.pos_iff_ne_zero.2 hfee
    have hboth := hspl.transfers.legs_iff w.usdcDecimals hspl.capped hx
      (fun hd => hself ⟨x, hx, hd⟩) hy (hspl.feeVaultMint y hy) hut huf hw.apart hlegs.symm
    rw [exists_congr fun _ => mintPaid_zero]
    simp only [MintPaid, transferIfPositive, if_pos hpos, cpi_ok, hfee, imp_false]
    rw [exists_comm]
    exact hboth

theorem Minted.charge (h : Minted rt amountUsdc minSilvOut accounts now user w price q lastPrice
    lastAt usdc silvMint silv) : mintFee amountUsdc accounts now user w = .ok q.feeUsdc := by
  obtain ⟨exempt, hexempt, hq⟩ := h.quote
  simp only [mintFee, bind_ok]
  exact ⟨exempt, hexempt, (quoteMint_steps hq).1⟩

theorem Minted.rerouted {on : Bool} (off : Bool)
    (h : Minted rt amountUsdc minSilvOut accounts now user (w.withRouting on) price q lastPrice
      lastAt usdc silvMint silv) :
    ∃ q', (∃ exempt, optionalAccount accounts.suppliesFeeExempt (w.feeExempts.lookup user) =
        .ok exempt ∧
      quoteMint (w.config.withRouting off)
        (effectivePremiumBps w.config.premiumBpsMint exempt user .mint now)
        price.normalizedPriceScaled w.silvMint.supply amountUsdc minSilvOut = .ok q') ∧
      q'.feeUsdc = q.feeUsdc ∧ q'.silvOut = q.silvOut ∧
      ∀ usdc', MintPaid rt w user q'.toTreasury q'.feeRouted usdc' →
        Minted rt amountUsdc minSilvOut accounts now user (w.withRouting off) price q' lastPrice
          lastAt usdc' silvMint silv := by
  obtain ⟨exempt, hexempt, hq⟩ := h.quote
  obtain ⟨q', hq', hfee, hout⟩ := @quoteMint_rerouted _ _ _ on off _ _ _ _ hq
  refine ⟨q', ⟨exempt, hexempt, hq'⟩, hfee, hout, fun usdc' hpaid => ?_⟩
  obtain ⟨silv₀, hsilv, hissue⟩ := h.issued
  exact ⟨h.treasury, h.feeVault, h.source, h.unpaused, h.opened, h.resumed, h.noRepricing, h.kyc,
    h.positive, h.least, h.read, h.delta, h.mint, ⟨exempt, hexempt, hq'⟩, h.recorded, hpaid,
    silv₀, hsilv, hout ▸ hissue⟩

theorem mint_accepted_iff {c : Call} (hw : Vaults rt w) (hspl : UsdcProgram rt frozen decimals w)
    (hix : c.ix = .mintSilv amountUsdc minSilvOut accounts)
    (hself : ¬ SelfDelegate rt w c.signer) :
    (∃ on, exec rt c (w.withRouting true) = .ok on) ↔
      (∃ off, exec rt c (w.withRouting false) = .ok off) ∧
        (frozen (w.feeVault rt) → mintFee amountUsdc accounts c.now c.signer w = .ok 0) := by
  constructor
  · rintro ⟨on, hon⟩
    obtain ⟨hs, he⟩ := (exec_mintSilv_iff hix).1 hon
    cases he with
    | @mintSilv _ _ _ _ q _ _ _ _ _ m =>
      obtain ⟨_, -, hq⟩ := m.quote
      obtain ⟨hrouted, hlegs⟩ := quoteMint_legs_on hq
      obtain ⟨q', ⟨_, -, hq'⟩, -, -, hredo⟩ := m.rerouted false
      obtain ⟨hrouted', hwhole'⟩ := quoteMint_legs_off hq'
      have hpaid : MintPaid rt w c.signer q.toTreasury q.feeRouted _ := m.paid
      rw [hrouted] at hpaid
      obtain ⟨⟨usdc', hwhole⟩, hopen⟩ :=
        (mintPaid_iff hw hspl hs hself m.source m.feeVault hlegs).1 ⟨_, hpaid⟩
      rw [← hrouted', ← hwhole'] at hwhole
      refine ⟨⟨_, (exec_mintSilv_iff hix).2 ⟨hs, .mintSilv (hredo usdc' hwhole)⟩⟩, fun hf => ?_⟩
      rw [← hopen hf]
      exact m.charge
  · rintro ⟨⟨off, hoff⟩, hcharge⟩
    obtain ⟨hs, he⟩ := (exec_mintSilv_iff hix).1 hoff
    cases he with
    | @mintSilv _ _ _ _ q _ _ _ _ _ m =>
      obtain ⟨_, -, hq⟩ := m.quote
      obtain ⟨hrouted, hwhole⟩ := quoteMint_legs_off hq
      obtain ⟨q', ⟨_, -, hq'⟩, hfee, -, hredo⟩ := m.rerouted true
      obtain ⟨hrouted', hlegs'⟩ := quoteMint_legs_on hq'
      have hpaid : MintPaid rt w c.signer q.toTreasury q.feeRouted _ := m.paid
      rw [hrouted, hwhole] at hpaid
      have hopen : frozen (w.feeVault rt) → q'.feeUsdc = 0 := fun hf =>
        hfee.trans (Except.ok.inj (m.charge.symm.trans (hcharge hf)))
      obtain ⟨usdc', hboth⟩ :=
        (mintPaid_iff hw hspl hs hself m.source m.feeVault hlegs').2 ⟨⟨_, hpaid⟩, hopen⟩
      rw [← hrouted'] at hboth
      exact ⟨_, (exec_mintSilv_iff hix).2 ⟨hs, .mintSilv (hredo usdc' hboth)⟩⟩

theorem mint_same {c : Call} (hw : Vaults rt w)
    (hix : c.ix = .mintSilv amountUsdc minSilvOut accounts) {on off : World}
    (hon : exec rt c (w.withRouting true) = .ok on)
    (hoff : exec rt c (w.withRouting false) = .ok off) : SameMint rt c.signer on off := by
  obtain ⟨hs, he⟩ := (exec_mintSilv_iff hix).1 hon
  obtain ⟨-, he'⟩ := (exec_mintSilv_iff hix).1 hoff
  cases he with
  | @mintSilv _ _ _ price q _ _ usdc silvMint silv m =>
    cases he' with
    | @mintSilv _ _ _ price' q' _ _ usdc' silvMint' silv' m' =>
      obtain rfl : price = price' := Except.ok.inj (m.read.symm.trans m'.read)
      obtain ⟨q₀, ⟨exempt, hexempt, hq₀⟩, -, hout, -⟩ := m.rerouted false
      obtain ⟨exempt', hexempt', hq'⟩ := m'.quote
      obtain rfl : exempt = exempt' := Except.ok.inj (hexempt.symm.trans hexempt')
      obtain rfl : q₀ = q' := Except.ok.inj (hq₀.symm.trans hq')
      obtain ⟨silv₀, hinit, hissue⟩ := m.issued
      obtain ⟨silv₀', hinit', hissue'⟩ := m'.issued
      obtain rfl : silv₀ = silv₀' := Except.ok.inj (hinit.symm.trans hinit')
      rw [← hout] at hissue
      obtain ⟨rfl, rfl⟩ := Prod.mk.inj (Option.some.inj (hissue.symm.trans hissue'))
      have settled := m.settled (hw.withRouting true) hs rfl rfl
      have settled' := m'.settled (hw.withRouting false) hs rfl rfl
      exact ⟨rfl, rfl, Nat.add_right_cancel (settled.debited.trans settled'.debited.symm),
        settled.vaultTotal.trans settled'.vaultTotal.symm⟩

end Mint

section Redeem

variable {rt : Runtime} {w : World} {now : ℤ} {user : Pubkey} {amountSilv minUsdcOut : UInt64}
  {accounts : PricedAccounts} {price : LazerPriceResult} {q : RedeemQuote} {lastPrice : ℕ}
  {lastAt : ℤ} {usdc silv : Ledger Pubkey} {silvMint : Mint Pubkey}

theorem Redeemed.charge (h : Redeemed rt amountSilv minUsdcOut accounts now user w price q
    lastPrice lastAt usdc silvMint silv) :
    redeemFee rt amountSilv accounts now user w = .ok q.feeUsdc := by
  obtain ⟨exempt, treasury, hexempt, -, hq⟩ := h.quote
  obtain ⟨hgross, hfee, -⟩ := quoteRedeem_steps hq
  simp only [redeemFee, bind_ok]
  exact ⟨exempt, hexempt, price, h.read, q.grossUsdc, hgross, hfee⟩

theorem Redeemed.rerouted (h : Redeemed rt amountSilv minUsdcOut accounts now user
    (w.withRouting true) price q lastPrice lastAt usdc silvMint silv) :
    ∃ q' usdc', Redeemed rt amountSilv minUsdcOut accounts now user (w.withRouting false) price q'
        lastPrice lastAt usdc' silvMint silv ∧
      q'.toUserUsdc = q.toUserUsdc ∧ q'.usedUsdc.toNat + q.feeUsdc.toNat = q.usedUsdc.toNat := by
  obtain ⟨exempt, treasury, hexempt, htreasury, hq⟩ := h.quote
  obtain ⟨q', hq', hgross, -, htoUser, -, -, hused⟩ := quoteRedeem_rerouted hq
  obtain ⟨usdc₀, usdc₁, hinit, hmain, -⟩ := h.paid
  have hrouted : q'.feeRouted = 0 := (quoteRedeem_ok hq').routed
  refine ⟨q', usdc₁, ⟨h.feeVault, h.source, h.unpaused, h.enabled, h.kyc, h.positive, h.read,
    h.delta, h.mint, ⟨exempt, treasury, hexempt, htreasury, hq'⟩, hgross ▸ h.recorded, h.burned,
    usdc₀, usdc₁, hinit, htoUser ▸ hmain, ?_⟩, htoUser, hused⟩
  rw [hrouted]
  rfl

theorem redeem_neutral {c : Call} (hw : Vaults rt w)
    (hix : c.ix = .redeemSilv amountSilv minUsdcOut accounts) :
    RedeemNeutral rt w c amountSilv accounts := by
  intro on hon
  obtain ⟨hs, he⟩ := (exec_redeemSilv_iff hix).1 hon
  cases he with
  | @redeemSilv _ _ _ _ q _ _ usdc _ _ m =>
    obtain ⟨q', usdc', m', htoUser, hused⟩ := m.rerouted
    have settled := m.settled (hw.withRouting true) hs rfl rfl
    have settled' := m'.settled (hw.withRouting false) hs rfl rfl
    obtain ⟨_, _, -, -, hq⟩ := m.quote
    obtain ⟨_, _, -, -, hq'⟩ := m'.quote
    have hrouted : q.feeRouted = q.feeUsdc := (quoteRedeem_ok hq).routed
    have hrouted' : q'.feeRouted = 0 := (quoteRedeem_ok hq').routed
    refine ⟨_, q.feeUsdc, (exec_redeemSilv_iff hix).2 ⟨hs, .redeemSilv m'⟩, m.charge, rfl, rfl, ?_,
      ?_, hused⟩
    · exact settled.credited.trans (htoUser ▸ settled'.credited.symm)
    · have hdebited : balance usdc w.config.usdcTreasury + q.totalOut.toNat = w.treasuryBalance :=
        settled.debited
      have hdebited' :
          balance usdc' w.config.usdcTreasury + q'.totalOut.toNat = w.treasuryBalance :=
        settled'.debited
      have hlegs := settled.legs
      have hlegs' := settled'.legs
      rw [hrouted] at hlegs
      rw [hrouted', UInt64.toNat_zero, htoUser] at hlegs'
      change balance usdc' w.config.usdcTreasury = balance usdc w.config.usdcTreasury + _
      omega

end Redeem

/-- Fee routing is neutral for users. -/
theorem routing_neutral {rt : Runtime} {w : World} (h : Reachable rt w) (c : Call) :
    (∀ amountUsdc minSilvOut accounts, c.ix = .mintSilv amountUsdc minSilvOut accounts →
      MintNeutral rt w c amountUsdc accounts) ∧
    ∀ amountSilv minUsdcOut accounts, c.ix = .redeemSilv amountSilv minUsdcOut accounts →
      RedeemNeutral rt w c amountSilv accounts := by
  obtain ⟨now, w₀, es, h₀, run⟩ := h
  have hw := vaults_of_run h₀ run
  refine ⟨fun amountUsdc minSilvOut accounts hix => ⟨?_, ?_⟩, ?_⟩
  · exact fun frozen decimals hspl hself => mint_accepted_iff hw hspl hix hself
  · exact fun on off hon hoff => mint_same hw hix hon hoff
  · exact fun amountSilv minUsdcOut accounts hix => redeem_neutral hw hix

section Examples

open Reference

/-- A deployment whose token program has frozen accounts, or a delegate with an allowance. -/
def guardedRuntime (frozen : Pubkey → Bool) (allowance : UInt64) : Runtime :=
  { Reference.runtime with tokens := guarded Tokens.reference frozen allowance }

theorem initialized_guarded (frozen : Pubkey → Bool) (allowance : UInt64) :
    Initialized (guardedRuntime frozen allowance) 1000 start := initialized_start

theorem usdcProgram_guarded (frozen : Pubkey → Bool) (allowance : UInt64) {w : World}
    (hcap : Capped w.usdc)
    (hmint : ∃ a, w.usdc.lookup (w.feeVault Reference.runtime) = some a ∧
      a.mint = w.config.usdcMint) :
    UsdcProgram (guardedRuntime frozen allowance) (frozen · = true) (fun _ _ => True) w := by
  refine ⟨guarded_ownerTransfers reference_ownerTransfers frozen allowance, hcap, ?_⟩
  intro a ha
  obtain ⟨b, hb, hm⟩ := hmint
  obtain rfl := Option.some.inj (hb.symm.trans ha)
  exact hm

theorem reachable_guarded {frozen : Pubkey → Bool} {allowance : UInt64} {cs : List Call}
    (h : succeeds (guardedRuntime frozen allowance) start cs = true) :
    Reachable (guardedRuntime frozen allowance)
      (final (guardedRuntime frozen allowance) start cs) :=
  ⟨1000, start, _, initialized_guarded _ _, run_of_succeeds h⟩

def noneFrozen (_ : Pubkey) : Bool := false

/-- Nothing is frozen and nobody has approved anybody. -/
def openRuntime : Runtime := guardedRuntime noneFrozen 0

def beforeMint : World := final openRuntime start [unpauseCall]

def beforeRedeem : World := final openRuntime start [unpauseCall, mintCall]

theorem routing_neutral_tradeCalls :
    (∃ on off, exec openRuntime mintCall (beforeMint.withRouting true) = .ok on ∧
      exec openRuntime mintCall (beforeMint.withRouting false) = .ok off ∧
      SameMint openRuntime user on off) ∧
    ∃ on off feeUsdc, exec openRuntime redeemCall (beforeRedeem.withRouting true) = .ok on ∧
      exec openRuntime redeemCall (beforeRedeem.withRouting false) = .ok off ∧
      PremiumKept openRuntime user feeUsdc on off := by
  constructor
  · have hreach : Reachable openRuntime beforeMint :=
      @reachable_guarded noneFrozen 0 [unpauseCall] (by decide +kernel)
    have hspl : UsdcProgram openRuntime (noneFrozen · = true) _ beforeMint :=
      usdcProgram_guarded noneFrozen 0 (Capped.of_keys (by decide +kernel))
        ⟨⟨USDC_DEVNET, feeVaultPda, none, 5000000⟩, by decide +kernel, by decide +kernel⟩
    have hself : ¬ SelfDelegate openRuntime beforeMint user := by
      rintro ⟨a, ha, hd⟩
      have hfound : beforeMint.usdc.lookup (ata user beforeMint.config.usdcMint) =
          some ⟨USDC_DEVNET, user, none, 1000000000⟩ := by decide +kernel
      obtain rfl := Option.some.inj (hfound.symm.trans ha)
      cases hd
    have hoff := @exec_next openRuntime (beforeMint.withRouting false) mintCall (by decide +kernel)
    have hneutral := (routing_neutral hreach mintCall).1 100000000 0 _ rfl
    obtain ⟨on, hon⟩ := (hneutral.accepted _ _ hspl hself).2
      ⟨⟨_, hoff⟩, fun hf => absurd hf Bool.false_ne_true⟩
    exact ⟨on, _, hon, hoff, hneutral.same _ _ hon hoff⟩
  · have hreach : Reachable openRuntime beforeRedeem :=
      @reachable_guarded noneFrozen 0 [unpauseCall, mintCall] (by decide +kernel)
    have hon := @exec_next openRuntime (beforeRedeem.withRouting true) redeemCall
      (by decide +kernel)
    obtain ⟨off, fee, hoff, -, hkept⟩ :=
      (routing_neutral hreach redeemCall).2 3000000 0 _ rfl _ hon
    exact ⟨_, off, fee, hon, hoff, hkept⟩

def vaultFrozen (k : Pubkey) : Bool := k = ata feeVaultPda USDC_DEVNET

/-- The start, opened for business. -/
def opened : World := final (guardedRuntime vaultFrozen 0) start [unpauseCall]

/-- The user approves himself on his own account. -/
def approved : World where
  __ := start
  usdc := start.usdc.insert (ata user USDC_DEVNET) ⟨USDC_DEVNET, user, some user, 1000000000⟩

def approvedOpened : World :=
  final (guardedRuntime noneFrozen 99000000) approved [unpauseCall]

theorem lookup_approved {k : Pubkey} (h : k ≠ ata user USDC_DEVNET) :
    approved.usdc.lookup k = start.usdc.lookup k :=
  Finmap.lookup_insert_of_ne _ h

theorem external_approved (rt : Runtime) (hata : rt.ata = ata)
    (ht : rt.treasuryPda = treasuryPda) (hf : rt.feeVaultPda = feeVaultPda) :
    External rt start approved := by
  have hvault : ∀ address owner, IsVault rt start.config.usdcMint address owner →
      address ≠ ata user USDC_DEVNET := by
    rintro address owner ⟨rfl, rfl | rfl⟩ he
    · rw [hata, ht] at he
      exact absurd (ata_inj he) (by decide)
    · rw [hata, hf] at he
      exact absurd (ata_inj he) (by decide)
  refine ⟨rfl, rfl, rfl, rfl, rfl, UInt64.le_refl _, rfl, rfl, rfl, ?_, ?_⟩
  · intro hsound address owner hv a ha
    rw [lookup_approved (hvault address owner hv)] at ha
    exact hsound address owner hv a ha
  · intro address owner hv
    have hsame := lookup_approved (hvault address owner hv)
    refine ⟨fun h => hsame ▸ h, ?_⟩
    unfold balance
    rw [hsame]

theorem reachable_approvedOpened :
    Reachable (guardedRuntime noneFrozen 99000000) approvedOpened := by
  have hext : Run (guardedRuntime noneFrozen 99000000) start [⟨start, .external, approved⟩]
      approved := .snoc .nil (external_approved _ rfl rfl rfl)
  exact ⟨1000, start, _, initialized_guarded _ _, hext.append
    (@run_of_succeeds (guardedRuntime noneFrozen 99000000) approved [unpauseCall]
      (by decide +kernel))⟩

/-- With the fee vault frozen the mint is refused with routing on, and accepted with it off. A user
who has approved himself for just what the treasury is due is refused with routing off. -/
theorem routing_not_neutral :
    (Reachable (guardedRuntime vaultFrozen 0) opened ∧
      UsdcProgram (guardedRuntime vaultFrozen 0) (vaultFrozen · = true) (fun _ _ => True) opened ∧
      (exec (guardedRuntime vaultFrozen 0) mintCall (opened.withRouting true)).isOk = false ∧
      (exec (guardedRuntime vaultFrozen 0) mintCall (opened.withRouting false)).isOk = true) ∧
    (Reachable (guardedRuntime noneFrozen 99000000) approvedOpened ∧
      UsdcProgram (guardedRuntime noneFrozen 99000000) (noneFrozen · = true) (fun _ _ => True)
        approvedOpened ∧
      (exec (guardedRuntime noneFrozen 99000000) mintCall
        (approvedOpened.withRouting true)).isOk = true ∧
      (exec (guardedRuntime noneFrozen 99000000) mintCall
        (approvedOpened.withRouting false)).isOk = false) := by
  refine ⟨⟨reachable_guarded (by decide +kernel), ?_, by decide +kernel, by decide +kernel⟩,
    reachable_approvedOpened, ?_, by decide +kernel, by decide +kernel⟩
  · exact usdcProgram_guarded _ _ (Capped.of_keys (by decide +kernel))
      ⟨⟨USDC_DEVNET, feeVaultPda, none, 5000000⟩, by decide +kernel, by decide +kernel⟩
  · exact usdcProgram_guarded _ _ (Capped.of_keys (by decide +kernel))
      ⟨⟨USDC_DEVNET, feeVaultPda, none, 5000000⟩, by decide +kernel, by decide +kernel⟩

end Examples

end DominionSilver
