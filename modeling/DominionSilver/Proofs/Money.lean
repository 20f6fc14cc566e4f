import DominionSilver.Proofs.Notice
import DominionSilver.Sanity.Vaults

/-! Conservation of money. Each operation moves its amount between the accounts
it names, and over a run what the two vaults hold changes by what came in and
what went out. A sweep or a withdrawal may send its amount to the other vault,
which leaves the sum as it was. -/

namespace DominionSilver

open Checked Bytes Tokens

section Settlement

variable (rt : Runtime) (w w' : World)

/-- A mint takes the whole amount from the user, in two legs, and issues what it quotes. -/
structure MintSettled (now : ℤ) (user : Pubkey) (amountUsdc minSilvOut : UInt64)
    (accounts : PricedAccounts) (q : MintQuote) : Prop where
  quoted : ∃ price premiumBps, readSilverPriceLazer rt accounts.lazer w.config now = .ok price ∧
    quoteMint w.config premiumBps price.normalizedPriceScaled w.silvMint.supply amountUsdc
      minSilvOut = .ok q
  legs : q.toTreasury.toNat + q.feeRouted.toNat = amountUsdc.toNat
  routed : q.feeRouted = feeRouted w.config q.feeUsdc
  debited : balance w'.usdc (rt.ata user w.config.usdcMint) + amountUsdc.toNat =
    balance w.usdc (rt.ata user w.config.usdcMint)
  treasury : w'.treasuryBalance = w.treasuryBalance + q.toTreasury.toNat
  feeVault : w'.feeVaultBalance rt = w.feeVaultBalance rt + q.feeRouted.toNat
  issued : balance w'.silv (rt.ata user w.config.silvMint) =
    balance w.silv (rt.ata user w.config.silvMint) + q.silvOut.toNat
  supply : w'.silvMint.supply.toNat = w.silvMint.supply.toNat + q.silvOut.toNat

/-- A redeem takes both of its legs from the treasury; the premium stays there where it is not
routed. -/
structure RedeemSettled (now : ℤ) (user : Pubkey) (amountSilv minUsdcOut : UInt64)
    (accounts : PricedAccounts) (q : RedeemQuote) : Prop where
  quoted : ∃ price premiumBps treasury, treasury.toNat = w.treasuryBalance ∧
    readSilverPriceLazer rt accounts.lazer w.config now = .ok price ∧
    quoteRedeem w.config premiumBps price.normalizedPriceScaled treasury now amountSilv
      minUsdcOut = .ok q ∧
    q.grossUsdc.toNat = amountSilv.toNat * price.normalizedPriceScaled / 1000000000
  legs : q.totalOut.toNat = q.toUserUsdc.toNat + q.feeRouted.toNat
  total : q.totalOut.toNat =
    if w.config.feeRoutingDisabled then q.grossUsdc.toNat - q.feeUsdc.toNat else q.grossUsdc.toNat
  debited : w'.treasuryBalance + q.totalOut.toNat = w.treasuryBalance
  credited : balance w'.usdc (rt.ata user w.config.usdcMint) =
    balance w.usdc (rt.ata user w.config.usdcMint) + q.toUserUsdc.toNat
  feeVault : w'.feeVaultBalance rt = w.feeVaultBalance rt + q.feeRouted.toNat
  burned : balance w'.silv (rt.ata user w.config.silvMint) + amountSilv.toNat =
    balance w.silv (rt.ata user w.config.silvMint)

structure DepositSettled (source : Pubkey) (amount : UInt64) : Prop where
  debited : balance w'.usdc source + amount.toNat = balance w.usdc source
  treasury : w'.treasuryBalance = w.treasuryBalance + amount.toNat
  feeVault : w'.feeVaultBalance rt = w.feeVaultBalance rt

/-- The destination of a sweep may be the treasury. -/
structure SweepSettled (destination : Pubkey) (amount : UInt64) : Prop where
  debited : w'.feeVaultBalance rt + amount.toNat = w.feeVaultBalance rt
  credited : balance w'.usdc destination = balance w.usdc destination + amount.toNat
  treasury : destination ≠ w.config.usdcTreasury → w'.treasuryBalance = w.treasuryBalance

/-- The recipient's account of a withdrawal may be a vault, and even the treasury itself. -/
structure WithdrawalSettled (recipientAta recipient : Pubkey) (amount : UInt64) : Prop where
  owner : ∃ a, w.usdc.lookup recipientAta = some a ∧ a.owner = recipient
  covered : amount.toNat ≤ w.treasuryBalance
  debited : recipientAta ≠ w.config.usdcTreasury →
    w'.treasuryBalance + amount.toNat = w.treasuryBalance ∧
      balance w'.usdc recipientAta = balance w.usdc recipientAta + amount.toNat
  kept : recipientAta = w.config.usdcTreasury → w'.treasuryBalance = w.treasuryBalance
  float : w.config.treasuryMinFloatUsdc.toNat ≤ w'.treasuryBalance
  feeVault : recipientAta ≠ w.feeVault rt → w'.feeVaultBalance rt = w.feeVaultBalance rt

/-- What one step does to the money. -/
def Settled (r : Entry) : Prop :=
  match r.event with
  | .call c => match c.ix with
    | .mintSilv amountUsdc minSilvOut accounts =>
        ∃ q, MintSettled rt r.pre r.post c.now c.signer amountUsdc minSilvOut accounts q
    | .redeemSilv amountSilv minUsdcOut accounts =>
        ∃ q, RedeemSettled rt r.pre r.post c.now c.signer amountSilv minUsdcOut accounts q
    | .depositUsdc amount source => DepositSettled rt r.pre r.post source amount
    | .withdrawFees amount destination => SweepSettled rt r.pre r.post destination amount
    | .execute .withdrawUsdc n _ ata =>
        ∃ tl amount recipient, r.pre.timelocks.lookup n = some tl ∧
          decodeChange .withdrawUsdc tl.actionData = some (.withdrawUsdc amount recipient) ∧
          WithdrawalSettled rt r.pre r.post ata recipient amount
    | _ => r.post.usdc = r.pre.usdc
  | .external => r.pre.treasuryBalance ≤ r.post.treasuryBalance ∧
      r.pre.feeVaultBalance rt ≤ r.post.feeVaultBalance rt

end Settlement

section Steps

variable {rt : Runtime} {w : World} {c : ConfigAccount} {now : ℤ} {user : Pubkey}
  {accounts : PricedAccounts} {price : LazerPriceResult} {lastPrice : ℕ} {lastAt : ℤ}
  {usdc silv : Ledger Pubkey} {silvMint : Mint Pubkey}

theorem Minted.settled {amountUsdc minSilvOut : UInt64} {q : MintQuote} (hw : Vaults rt w)
    (hs : rt.canSign user = true) (ht : c.usdcTreasury = w.config.usdcTreasury)
    (hm : c.usdcMint = w.config.usdcMint)
    (h : Minted rt amountUsdc minSilvOut accounts now user w price q lastPrice lastAt usdc silvMint
      silv) :
    MintSettled rt w { w with config := c, usdc, silvMint, silv } now user amountUsdc minSilvOut
      accounts q := by
  obtain ⟨usdc₁, hmain, hfee⟩ := h.moved
  obtain ⟨exempt, -, hq⟩ := h.quote
  obtain ⟨silv₀, hinit, hissue⟩ := h.issued
  obtain ⟨-, hsupply, hissued⟩ := rt.tokens.mintTo_issued hissue
  obtain ⟨hut, huf⟩ := hw.user_apart hs
  have hquoted := quoteMint_ok hq
  refine ⟨⟨price, _, h.read, hq⟩, hquoted.legs, hquoted.routed, ?_, ?_, ?_, ?_, hsupply⟩
  · have h1 := hmain.at_src hut
    have h2 := hfee.at_src huf
    have hlegs := hquoted.legs
    change balance usdc _ + _ = _
    omega
  · change balance usdc c.usdcTreasury = balance w.usdc w.config.usdcTreasury + _
    rw [ht, hfee.elsewhere hut.symm hw.apart, hmain.at_dst hut.symm]
  · change balance usdc (rt.ata rt.feeVaultPda c.usdcMint) = balance w.usdc (w.feeVault rt) + _
    rw [hm, ← hmain.elsewhere huf.symm hw.apart.symm]
    exact hfee.at_dst huf.symm
  · change balance silv _ = _
    rw [hissued.balance, balance_initAssociated hinit, if_pos rfl]

theorem Redeemed.settled {amountSilv minUsdcOut : UInt64} {q : RedeemQuote} (hw : Vaults rt w)
    (hs : rt.canSign user = true) (ht : c.usdcTreasury = w.config.usdcTreasury)
    (hm : c.usdcMint = w.config.usdcMint)
    (h : Redeemed rt amountSilv minUsdcOut accounts now user w price q lastPrice lastAt usdc
      silvMint silv) :
    RedeemSettled rt w { w with config := c, usdc, silvMint, silv } now user amountSilv minUsdcOut
      accounts q := by
  obtain ⟨usdc₀, usdc₁, hinit, hmain, hfee⟩ := h.moved
  obtain ⟨exempt, treasury, -, hfound, hq⟩ := h.quote
  obtain ⟨-, -, hburned⟩ := rt.tokens.burn_burned h.burned
  obtain ⟨hut, huf⟩ := hw.user_apart hs
  have hquoted := quoteRedeem_ok hq
  have hbalance := balance_initAssociated hinit
  refine ⟨⟨price, _, treasury.amount, (balance_eq hfound).symm, h.read, hq, hquoted.gross⟩,
    hquoted.total, ?_, ?_, ?_, ?_, ?_⟩
  · have hnet := hquoted.net
    rw [hquoted.total, hquoted.routed, feeRouted]
    split_ifs
    · rw [UInt64.toNat_zero]; omega
    · exact hnet
  · have h1 := hmain.at_src hut.symm
    have h2 := hfee.at_src hw.apart
    have htotal := hquoted.total
    change balance usdc c.usdcTreasury + _ = balance w.usdc w.config.usdcTreasury
    rw [ht, ← hbalance]
    omega
  · change balance usdc _ = _
    rw [hfee.elsewhere hut huf, hmain.at_dst hut, hbalance]
  · change balance usdc (rt.ata rt.feeVaultPda c.usdcMint) = balance w.usdc (w.feeVault rt) + _
    rw [hm, ← hbalance, ← hmain.elsewhere hw.apart.symm huf.symm]
    exact hfee.at_dst hw.apart.symm
  · have hb := hburned.balance (rt.ata user w.config.silvMint)
    rwa [if_pos rfl] at hb

theorem depositSettled {source : Pubkey} {amount : UInt64} (hw : Vaults rt w)
    (hs : rt.canSign user = true)
    (moved : rt.tokens.transferChecked w.usdc w.config.usdcMint source w.config.usdcTreasury user
      amount w.usdcDecimals = some usdc) :
    DepositSettled rt w { w with usdc } source amount := by
  obtain ⟨hmoved, hmay⟩ := rt.tokens.transfer_moved moved
  have hst : source ≠ w.config.usdcTreasury := by
    rintro rfl
    exact hw.sound.not_mayMove hw.isVault_treasury hs hmay
  have hsf : source ≠ w.feeVault rt := by
    rintro rfl
    exact hw.sound.not_mayMove isVault_feeVault hs hmay
  exact ⟨hmoved.at_src hst, hmoved.at_dst hst.symm, hmoved.elsewhere hsf.symm hw.apart.symm⟩

theorem Swept.settled {destination : Pubkey} {amount : UInt64} (hw : Vaults rt w)
    (h : Swept rt amount destination w usdc) :
    SweepSettled rt w { w with usdc } destination amount := by
  have hmoved := (rt.tokens.transfer_moved h.moved).1
  exact ⟨hmoved.at_src h.apart.symm, hmoved.at_dst h.apart,
    fun hd => hmoved.elsewhere hw.apart hd.symm⟩

/-- An applied withdrawal, seen from any later state with its balances and addresses. -/
theorem withdrawalSettled_of_applied {recipientAta recipient : Pubkey} {amount : UInt64}
    {w₁ w' : World} (hw : Vaults rt w)
    (h : Applied rt recipientAta w (.withdrawUsdc amount recipient) w₁) (hu : w'.usdc = w₁.usdc)
    (ht : w'.config.usdcTreasury = w₁.config.usdcTreasury)
    (hm : w'.config.usdcMint = w₁.config.usdcMint) :
    WithdrawalSettled rt w w' recipientAta recipient amount := by
  cases h with
  | @withdrawUsdc _ _ treasury ata usdc vault supplied mint owner unpaused positive float moved =>
    have hmoved := (rt.tokens.transfer_moved moved).1
    have hvault : w.treasuryBalance = treasury.amount.toNat := balance_eq vault
    have htreasury : w'.treasuryBalance = balance usdc w.config.usdcTreasury := by
      unfold World.treasuryBalance
      rw [hu, ht]
    have hfeeVault : w'.feeVaultBalance rt = balance usdc (w.feeVault rt) := by
      unfold World.feeVaultBalance World.feeVault
      rw [hu, hm]
    have hdebit : recipientAta ≠ w.config.usdcTreasury →
        w'.treasuryBalance + amount.toNat = w.treasuryBalance := fun hr =>
      htreasury ▸ hmoved.at_src hr.symm
    have hkept : recipientAta = w.config.usdcTreasury →
        w'.treasuryBalance = w.treasuryBalance := by
      rintro rfl
      exact htreasury.trans hmoved.self
    refine ⟨⟨ata, supplied, owner⟩, by omega, fun hr => ⟨hdebit hr, ?_⟩, hkept, ?_, ?_⟩
    · rw [hu]
      exact hmoved.at_dst hr
    · by_cases hr : recipientAta = w.config.usdcTreasury
      · have := hkept hr
        omega
      · have := hdebit hr
        omega
    · intro hr
      exact hfeeVault.trans (hmoved.elsewhere hw.apart.symm hr.symm)

end Steps

section Flows

/-- USDC that a step moves into or out of the vaults, by what moves it. -/
structure Flows where
  deposits : ℕ := 0
  mints : ℕ := 0
  payouts : ℕ := 0
  withdrawals : ℕ := 0
  sweeps : ℕ := 0
  /-- The part of the sweeps and withdrawals that went to a vault. -/
  internal : ℕ := 0
  /-- What others sent to the vaults. -/
  donations : ℕ := 0

def Flows.net (f : Flows) : ℤ :=
  f.deposits + f.mints - f.payouts - f.withdrawals - f.sweeps + f.internal + f.donations

def vaultTotal (rt : Runtime) (w : World) : ℕ := w.treasuryBalance + w.feeVaultBalance rt

/-- The amount of the withdrawal queued under `n`. -/
def withdrawalAt (w : World) (n : UInt64) : ℕ :=
  match (w.timelocks.lookup n).bind fun tl => decodeChange .withdrawUsdc tl.actionData with
  | some (.withdrawUsdc amount _) => amount.toNat
  | _ => 0

def flowsAt (rt : Runtime) (r : Entry) : Flows :=
  match r.event with
  | .call c => match c.ix with
    | .mintSilv amountUsdc _ _ => { mints := amountUsdc.toNat }
    | .redeemSilv _ _ _ =>
        { payouts := balance r.post.usdc (rt.ata c.signer r.pre.config.usdcMint) -
            balance r.pre.usdc (rt.ata c.signer r.pre.config.usdcMint) }
    | .depositUsdc amount _ => { deposits := amount.toNat }
    | .withdrawFees amount destination =>
        { sweeps := amount.toNat
          internal := if destination = r.pre.config.usdcTreasury then amount.toNat else 0 }
    | .execute .withdrawUsdc n _ ata =>
        { withdrawals := withdrawalAt r.pre n
          internal := if ata = r.pre.config.usdcTreasury ∨ ata = r.pre.feeVault rt then
            withdrawalAt r.pre n else 0 }
    | _ => {}
  | .external => { donations := vaultTotal rt r.post - vaultTotal rt r.pre }

/-- The sum of one kind of flow over a run. -/
def totalOf (rt : Runtime) (f : Flows → ℕ) (es : List Entry) : ℤ :=
  (es.map fun r => (f (flowsAt rt r) : ℤ)).sum

/-- What the operations of a run bring in, less all that they pay out, withdraw and sweep. -/
def netInflow (rt : Runtime) (es : List Entry) : ℤ :=
  totalOf rt Flows.deposits es + totalOf rt Flows.mints es - totalOf rt Flows.payouts es -
    totalOf rt Flows.withdrawals es - totalOf rt Flows.sweeps es

end Flows

section Totals

variable {rt : Runtime} {w w' : World} {now : ℤ} {user : Pubkey} {accounts : PricedAccounts}

theorem MintSettled.vaultTotal {amountUsdc minSilvOut : UInt64} {q : MintQuote}
    (h : MintSettled rt w w' now user amountUsdc minSilvOut accounts q) :
    vaultTotal rt w' = vaultTotal rt w + amountUsdc.toNat := by
  have htreasury := h.treasury
  have hfeeVault := h.feeVault
  have hlegs := h.legs
  unfold DominionSilver.vaultTotal
  omega

theorem RedeemSettled.vaultTotal {amountSilv minUsdcOut : UInt64} {q : RedeemQuote}
    (h : RedeemSettled rt w w' now user amountSilv minUsdcOut accounts q) :
    vaultTotal rt w' + (balance w'.usdc (rt.ata user w.config.usdcMint) -
      balance w.usdc (rt.ata user w.config.usdcMint)) = vaultTotal rt w := by
  have hdebited := h.debited
  have hcredited := h.credited
  have hfeeVault := h.feeVault
  have hlegs := h.legs
  unfold DominionSilver.vaultTotal
  omega

theorem DepositSettled.vaultTotal {source : Pubkey} {amount : UInt64}
    (h : DepositSettled rt w w' source amount) :
    vaultTotal rt w' = vaultTotal rt w + amount.toNat := by
  have htreasury := h.treasury
  have hfeeVault := h.feeVault
  unfold DominionSilver.vaultTotal
  omega

theorem SweepSettled.treasury_eq {destination : Pubkey} {amount : UInt64}
    (h : SweepSettled rt w w' destination amount)
    (ht : w'.config.usdcTreasury = w.config.usdcTreasury) :
    w'.treasuryBalance = w.treasuryBalance +
      (if destination = w.config.usdcTreasury then amount.toNat else 0) := by
  split_ifs with hd
  · unfold World.treasuryBalance
    rw [ht, ← hd]
    exact h.credited
  · exact h.treasury hd

theorem SweepSettled.vaultTotal {destination : Pubkey} {amount : UInt64}
    (h : SweepSettled rt w w' destination amount)
    (ht : w'.config.usdcTreasury = w.config.usdcTreasury) :
    vaultTotal rt w' + amount.toNat = vaultTotal rt w +
      (if destination = w.config.usdcTreasury then amount.toNat else 0) := by
  have hdebited := h.debited
  have htreasury := h.treasury_eq ht
  unfold DominionSilver.vaultTotal
  omega

theorem WithdrawalSettled.feeVault_eq {ata recipient : Pubkey} {amount : UInt64}
    (hw : Vaults rt w) (h : WithdrawalSettled rt w w' ata recipient amount)
    (hm : w'.config.usdcMint = w.config.usdcMint) :
    w'.feeVaultBalance rt = w.feeVaultBalance rt +
      (if ata = w.feeVault rt then amount.toNat else 0) := by
  split_ifs with hf
  · have hcredited := (h.debited (hf ▸ hw.apart.symm)).2
    rw [hf] at hcredited
    unfold World.feeVaultBalance World.feeVault
    rw [hm]
    exact hcredited
  · exact h.feeVault hf

theorem WithdrawalSettled.vaultTotal {ata recipient : Pubkey} {amount : UInt64} (hw : Vaults rt w)
    (h : WithdrawalSettled rt w w' ata recipient amount)
    (hm : w'.config.usdcMint = w.config.usdcMint) :
    vaultTotal rt w' + amount.toNat = vaultTotal rt w +
      (if ata = w.config.usdcTreasury ∨ ata = w.feeVault rt then amount.toNat else 0) := by
  have hfeeVault := h.feeVault_eq hw hm
  unfold DominionSilver.vaultTotal
  by_cases ht : ata = w.config.usdcTreasury
  · have hkept := h.kept ht
    rw [if_neg (ht ▸ hw.apart)] at hfeeVault
    rw [if_pos (.inl ht)]
    omega
  · have hdebited := (h.debited ht).1
    simp only [ht, false_or]
    omega

end Totals

section Runs

variable {rt : Runtime} {w w' : World} {e : Event}

theorem addresses_step (h : Step rt w e w') :
    w'.config.usdcTreasury = w.config.usdcTreasury ∧ w'.config.usdcMint = w.config.usdcMint := by
  rcases step_cases h with ⟨c, -, -, he⟩ | ⟨-, he⟩
  · exact addresses_of_effect he
  · exact ⟨congrArg _ he.config, congrArg _ he.config⟩

theorem vaults_unmoved (h : Step rt w e w') (hu : w'.usdc = w.usdc) :
    w'.treasuryBalance = w.treasuryBalance ∧ w'.feeVaultBalance rt = w.feeVaultBalance rt := by
  obtain ⟨ht, hm⟩ := addresses_step h
  unfold World.treasuryBalance World.feeVaultBalance World.feeVault
  rw [hu, ht, hm]
  exact ⟨rfl, rfl⟩

theorem settled_step (hw : Vaults rt w) (h : Step rt w e w') : Settled rt ⟨w, e, w'⟩ := by
  rcases step_cases h with ⟨⟨now, hnow, signer, ix⟩, rfl, hs, he⟩ | ⟨rfl, he⟩
  · cases he with
    | mintSilv minted => exact ⟨_, minted.settled hw hs rfl rfl⟩
    | redeemSilv redeemed => exact ⟨_, redeemed.settled hw hs rfl rfl⟩
    | depositUsdc _ _ _ _ moved => exact depositSettled hw hs moved
    | withdrawFees _ swept => exact swept.settled hw
    | execute timelock decoded kind applied =>
      subst kind
      have ha := applied
      cases applied with
      | withdrawUsdc =>
        exact ⟨_, _, _, timelock.found, decoded, withdrawalSettled_of_applied hw ha rfl rfl rfl⟩
      | _ => rfl
    | _ => rfl
  · have ht := (he.vaultsKept _ _ hw.isVault_treasury).2
    have hf := (he.vaultsKept _ _ isVault_feeVault).2
    unfold Settled World.treasuryBalance World.feeVaultBalance World.feeVault
    rw [he.config]
    exact ⟨ht, hf⟩

theorem vaultTotal_step (hw : Vaults rt w) (h : Step rt w e w') :
    (vaultTotal rt w' : ℤ) = vaultTotal rt w + (flowsAt rt ⟨w, e, w'⟩).net := by
  have hset := settled_step hw h
  have still : w'.usdc = w.usdc → (vaultTotal rt w' : ℤ) = vaultTotal rt w + Flows.net {} :=
    fun hu => by
      obtain ⟨ht, hf⟩ := vaults_unmoved h hu
      simp only [vaultTotal, ht, hf, Flows.net]
      omega
  cases e with
  | call c =>
    obtain ⟨now, hnow, signer, ix⟩ := c
    cases ix with
    | mintSilv amountUsdc minSilvOut accounts =>
      obtain ⟨q, hq⟩ := hset
      have ht : vaultTotal rt w' = vaultTotal rt w + amountUsdc.toNat := hq.vaultTotal
      simp only [flowsAt, Flows.net]
      omega
    | redeemSilv amountSilv minUsdcOut accounts =>
      obtain ⟨q, hq⟩ := hset
      have ht : vaultTotal rt w' + (balance w'.usdc (rt.ata signer w.config.usdcMint) -
        balance w.usdc (rt.ata signer w.config.usdcMint)) = vaultTotal rt w := hq.vaultTotal
      simp only [flowsAt, Flows.net]
      omega
    | depositUsdc amount source =>
      have ht : vaultTotal rt w' = vaultTotal rt w + amount.toNat := hset.vaultTotal
      simp only [flowsAt, Flows.net]
      omega
    | withdrawFees amount destination =>
      have ht : vaultTotal rt w' + amount.toNat = vaultTotal rt w +
        (if destination = w.config.usdcTreasury then amount.toNat else 0) :=
          hset.vaultTotal (addresses_step h).1
      simp only [flowsAt, Flows.net]
      omega
    | execute k n rent ata =>
      cases k with
      | withdrawUsdc =>
        obtain ⟨tl, amount, recipient, hfound, hdecode, hset⟩ := hset
        have hamount : withdrawalAt w n = amount.toNat := by
          simp only [withdrawalAt, hfound, Option.bind_some, hdecode]
        have ht : vaultTotal rt w' + amount.toNat = vaultTotal rt w +
          (if ata = w.config.usdcTreasury ∨ ata = w.feeVault rt then amount.toNat else 0) :=
            hset.vaultTotal hw (addresses_step h).2
        simp only [flowsAt, Flows.net, hamount]
        omega
      | _ => exact still hset
    | _ => exact still hset
  | external =>
    have ht : vaultTotal rt w ≤ vaultTotal rt w' := Nat.add_le_add hset.1 hset.2
    simp only [flowsAt, Flows.net]
    omega

theorem totalOf_net (es : List Entry) :
    (es.map fun r => (flowsAt rt r).net).sum =
      netInflow rt es + totalOf rt Flows.internal es + totalOf rt Flows.donations es := by
  induction es with
  | nil => rfl
  | cons r es ih =>
    simp only [netInflow, totalOf, List.map_cons, List.sum_cons] at ih ⊢
    rw [ih, Flows.net]
    ring

theorem vaultTotal_run {now₀ : ℤ} {w₀ : World} {es : List Entry} (h₀ : Initialized rt now₀ w₀)
    (run : Run rt w₀ es w) :
    (vaultTotal rt w : ℤ) - vaultTotal rt w₀ =
      netInflow rt es + totalOf rt Flows.internal es + totalOf rt Flows.donations es := by
  have hsum : (vaultTotal rt w : ℤ) =
      vaultTotal rt w₀ + (es.map fun r => (flowsAt rt r).net).sum :=
    run.sum_flow (I := Vaults rt) (f := fun w => (vaultTotal rt w : ℤ)) (vaults_initial h₀)
      Vaults.step vaultTotal_step
  rw [totalOf_net] at hsum
  omega

theorem sweep_of_feeVault_lt (hw : Vaults rt w) (h : Step rt w e w')
    (hlt : w'.feeVaultBalance rt < w.feeVaultBalance rt) :
    ∃ c amount destination, e = .call c ∧ c.ix = .withdrawFees amount destination := by
  have hset := settled_step hw h
  have still : w'.usdc = w.usdc → False := fun hu => hlt.ne (vaults_unmoved h hu).2
  cases e with
  | call c =>
    obtain ⟨now, hnow, signer, ix⟩ := c
    cases ix with
    | mintSilv => obtain ⟨q, hq⟩ := hset; exact absurd (Nat.le.intro hq.feeVault.symm) hlt.not_ge
    | redeemSilv => obtain ⟨q, hq⟩ := hset; exact absurd (Nat.le.intro hq.feeVault.symm) hlt.not_ge
    | depositUsdc => exact absurd hset.feeVault hlt.ne
    | withdrawFees amount destination => exact ⟨_, _, _, rfl, rfl⟩
    | execute k =>
      cases k with
      | withdrawUsdc =>
        obtain ⟨tl, amount, recipient, -, -, hset⟩ := hset
        exact absurd (Nat.le.intro (hset.feeVault_eq hw (addresses_step h).2).symm) hlt.not_ge
      | _ => exact (still hset).elim
    | _ => exact (still hset).elim
  | external => exact absurd hset.2 hlt.not_ge

theorem redeem_or_withdrawal_of_treasury_lt (hw : Vaults rt w) (h : Step rt w e w')
    (hlt : w'.treasuryBalance < w.treasuryBalance) :
    (∃ c amountSilv minUsdcOut accounts, e = .call c ∧
      c.ix = .redeemSilv amountSilv minUsdcOut accounts) ∨
    ∃ c n rent ata, e = .call c ∧ c.ix = .execute .withdrawUsdc n rent ata := by
  have hset := settled_step hw h
  have still : w'.usdc = w.usdc → False := fun hu => hlt.ne (vaults_unmoved h hu).1
  cases e with
  | call c =>
    obtain ⟨now, hnow, signer, ix⟩ := c
    cases ix with
    | mintSilv => obtain ⟨q, hq⟩ := hset; exact absurd (Nat.le.intro hq.treasury.symm) hlt.not_ge
    | redeemSilv => exact .inl ⟨_, _, _, _, rfl, rfl⟩
    | depositUsdc => exact absurd (Nat.le.intro hset.treasury.symm) hlt.not_ge
    | withdrawFees =>
      exact absurd (Nat.le.intro (hset.treasury_eq (addresses_step h).1).symm) hlt.not_ge
    | execute k =>
      cases k with
      | withdrawUsdc => exact .inr ⟨_, _, _, _, rfl, rfl⟩
      | _ => exact (still hset).elim
    | _ => exact (still hset).elim
  | external => exact absurd hset.1 hlt.not_ge

/-- Over a run every step settles as it says, and what the two vaults hold changes by the deposits,
the mints and the donations, less the payouts, the withdrawals and the sweeps but for what these
send to a vault. The fee vault falls only at a sweep, the treasury only at a redeem or a withdrawal
proposed with that amount and that recipient. -/
theorem money_conserved {now₀ : ℤ} {w₀ : World} {es : List Entry} (h₀ : Initialized rt now₀ w₀)
    (run : Run rt w₀ es w) :
    (∀ r ∈ es, Settled rt r) ∧
    (vaultTotal rt w : ℤ) - vaultTotal rt w₀ =
      netInflow rt es + totalOf rt Flows.internal es + totalOf rt Flows.donations es ∧
    (∀ r ∈ es, r.post.feeVaultBalance rt < r.pre.feeVaultBalance rt →
      ∃ c amount destination, r.event = .call c ∧ c.ix = .withdrawFees amount destination) ∧
    ∀ before r after, es = before ++ r :: after →
      r.post.treasuryBalance < r.pre.treasuryBalance →
      (∃ c amountSilv minUsdcOut accounts, r.event = .call c ∧
        c.ix = .redeemSilv amountSilv minUsdcOut accounts) ∨
      ∃ c n rent ata amount recipient, r.event = .call c ∧
        c.ix = .execute .withdrawUsdc n rent ata ∧
        ProposedOnce before n (.withdrawUsdc amount recipient) c.now ∧
        WithdrawalSettled rt r.pre r.post ata recipient amount := by
  refine ⟨?_, vaultTotal_run h₀ run, ?_, ?_⟩
  · intro r hr
    obtain ⟨_, hrun, hs⟩ := run.step_of_mem hr
    exact settled_step (vaults_of_run h₀ hrun) hs
  · intro r hr hlt
    obtain ⟨_, hrun, hs⟩ := run.step_of_mem hr
    exact sweep_of_feeVault_lt (vaults_of_run h₀ hrun) hs hlt
  · rintro before r after rfl hlt
    obtain ⟨hrun, hs, -⟩ := run.split
    apply (redeem_or_withdrawal_of_treasury_lt (vaults_of_run h₀ hrun) hs hlt).imp_right
    rintro ⟨c, n, rent, ata, hc, hix⟩
    rw [hc] at hs
    obtain ⟨change, w₁, hk, ha, hpost, hproposed, -⟩ := notified_of_execute h₀ hrun hs hix
    cases change with
    | withdrawUsdc amount recipient =>
      exact ⟨c, n, rent, ata, amount, recipient, hc, hix, hproposed,
        withdrawalSettled_of_applied (vaults_of_run h₀ hrun) ha (by rw [hpost]; rfl) (by rw [hpost]; rfl)
          (by rw [hpost]; rfl)⟩
    | _ => cases hk

theorem money_conserved_tradeCalls :
    (vaultTotal Reference.runtime
        (Reference.final Reference.runtime Reference.start Reference.tradeCalls) : ℤ) -
      vaultTotal Reference.runtime Reference.start =
    netInflow Reference.runtime
        (Reference.entries Reference.runtime Reference.start Reference.tradeCalls) +
      totalOf Reference.runtime Flows.internal
        (Reference.entries Reference.runtime Reference.start Reference.tradeCalls) +
      totalOf Reference.runtime Flows.donations
        (Reference.entries Reference.runtime Reference.start Reference.tradeCalls) :=
  (money_conserved Reference.initialized_start
    (Reference.run_of_succeeds (by decide +kernel))).2.1

def sweepCalls : List Call :=
  [Reference.unpauseCall,
    Reference.callAt 3000 Reference.admin
      (.withdrawFees 1000000 (Reference.ata Reference.treasuryPda USDC_DEVNET))]

/-- The swept amount does not leave the vaults, so the change is not the net inflow. -/
theorem money_not_conserved_sweepCalls :
    Initialized Reference.runtime 1000 Reference.start ∧
      Run Reference.runtime Reference.start
        (Reference.entries Reference.runtime Reference.start sweepCalls)
        (Reference.final Reference.runtime Reference.start sweepCalls) ∧
      (vaultTotal Reference.runtime
          (Reference.final Reference.runtime Reference.start sweepCalls) : ℤ) -
        vaultTotal Reference.runtime Reference.start = 0 ∧
      netInflow Reference.runtime
        (Reference.entries Reference.runtime Reference.start sweepCalls) = -1000000 :=
  ⟨Reference.initialized_start, Reference.run_of_succeeds (by decide +kernel), by decide +kernel,
    by decide +kernel⟩

end Runs

end DominionSilver
