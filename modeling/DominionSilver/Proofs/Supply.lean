import DominionSilver.Sanity.Quotes
import DominionSilver.Sanity.Reference
import DominionSilver.Proofs.Loosening

/-! The supply cap. Both mint paths compare the supply they leave with the cap,
a new cap covers the live supply, and nothing else issues SILV. -/

namespace DominionSilver

open Checked Bytes Tokens

/-- SILV in circulation is within the cap, and the cap within its default. -/
structure SupplyCapped (w : World) : Prop where
  supply : w.silvMint.supply.toNat ≤ w.config.maxSilvSupply.toNat
  cap : w.config.maxSilvSupply ≤ DEFAULT_MAX_SILV_SUPPLY

theorem supplyCapped_initial {rt : Runtime} {now : ℤ} {w : World} (h : Initialized rt now w) :
    SupplyCapped w := by
  obtain ⟨args, g, t, m, d⟩ := deployed_of_initialized h
  obtain ⟨usdc, -, rfl⟩ := d.state
  exact ⟨by rw [d.unissued]; exact Nat.zero_le _, UInt64.le_refl _⟩

theorem supply_updateMetadataField {rt : Runtime} {field : Field} {value : Option String}
    {m m' : Mint Pubkey} (h : updateMetadataField rt field value m = .ok m') :
    m'.supply = m.supply := by
  cases value with
  | none => rw [← Except.ok.inj h]
  | some v => rw [rt.tokens.updateField_set (cpi_ok.1 h)]; rfl

theorem supply_of_applied {rt : Runtime} {ata : Pubkey} {w w₁ : World} {change : Change}
    (h : Applied rt ata w change w₁) : w₁.silvMint.supply = w.silvMint.supply := by
  cases h with
  | metadata _ name symbol uri =>
    exact (supply_updateMetadataField uri).trans
      ((supply_updateMetadataField symbol).trans (supply_updateMetadataField name))
  | _ => rfl

theorem Minted.supply {rt : Runtime} {amountUsdc minSilvOut : UInt64} {accounts : PricedAccounts}
    {now : ℤ} {user : Pubkey} {w : World} {price : LazerPriceResult} {q : MintQuote} {lastPrice : ℕ}
    {lastAt : ℤ} {usdc silv : Ledger Pubkey} {silvMint : Mint Pubkey}
    (h : Minted rt amountUsdc minSilvOut accounts now user w price q lastPrice lastAt usdc silvMint
      silv) :
    silvMint.supply.toNat = w.silvMint.supply.toNat + q.silvOut.toNat ∧
      silvMint.supply.toNat ≤ w.config.maxSilvSupply.toNat := by
  obtain ⟨silv₀, -, hissue⟩ := h.issued
  obtain ⟨exempt, -, hq⟩ := h.quote
  have hs := (rt.tokens.mintTo_issued hissue).2.1
  exact ⟨hs, hs ▸ (quoteMint_ok hq).cap⟩

theorem SupplyCapped.effect {rt : Runtime} {now : ℤ} {signer : Pubkey} {ix : Instruction}
    {w w' : World} (hw : SupplyCapped w) (h : Effect rt now signer w ix w') : SupplyCapped w' := by
  refine ⟨?_, UInt64.le_trans (maxSilvSupply_of_effect h) hw.cap⟩
  have hle := hw.supply
  cases h with
  | mintSilv minted => exact minted.supply.2
  | redeemSilv redeemed =>
    have hb := (rt.tokens.burn_burned redeemed.burned).2.1
    exact (Nat.le.intro hb).trans hle
  | adminPremint _ _ _ _ _ _ _ _ post cap issued =>
    have hpost := checkedAdd_eq_some.1 post
    have hcap := UInt64.le_iff_toNat_le.1 cap
    simp only [word_uint64] at hpost
    change _ ≤ w.config.maxSilvSupply.toNat
    rw [(rt.tokens.mintTo_issued issued).2.1]
    omega
  | setMaxSilvSupply _ _ _ covers => exact UInt64.le_iff_toNat_le.1 covers
  | execute _ _ _ applied =>
    change _ ≤ (closeTimelock _ _ _).config.maxSilvSupply.toNat
    rw [closeTimelock, maxSilvSupply_of_applied applied]
    exact (supply_of_applied applied).symm ▸ hle
  | _ => exact hle

theorem SupplyCapped.external {rt : Runtime} {w w' : World} (hw : SupplyCapped w)
    (h : External rt w w') : SupplyCapped w' := by
  have hs := UInt64.le_iff_toNat_le.1 h.supply
  exact ⟨h.config ▸ hs.trans hw.supply, h.config ▸ hw.cap⟩

/-- In every reachable state the supply is at most the cap, and the cap at most its default. -/
theorem supply_cap {rt : Runtime} {w : World} (h : Reachable rt w) :
    w.silvMint.supply ≤ w.config.maxSilvSupply ∧
      w.config.maxSilvSupply ≤ DEFAULT_MAX_SILV_SUPPLY := by
  have hw := invariant_of_reachable supplyCapped_initial SupplyCapped.effect SupplyCapped.external h
  exact ⟨UInt64.le_iff_toNat_le.2 hw.supply, hw.cap⟩

/-- All the SILV there may be, pre-minted to the inventory wallet, and a cap lowered to it. -/
def premintCalls : List Call :=
  [Reference.unpauseCall,
    Reference.callAt 3000 Reference.admin
      (.adminPremint 100000000000 (Reference.ata Reference.inventory Reference.silvMintKey)),
    Reference.callAt 3001 Reference.admin (.setMaxSilvSupply 100000000000)]

theorem supply_cap_premintCalls :
    (Reference.final Reference.runtime Reference.start premintCalls).silvMint.supply ≤
        (Reference.final Reference.runtime Reference.start premintCalls).config.maxSilvSupply ∧
      (Reference.final Reference.runtime Reference.start premintCalls).config.maxSilvSupply ≤
        DEFAULT_MAX_SILV_SUPPLY :=
  supply_cap (Reference.reachable_final (by decide +kernel))

end DominionSilver
