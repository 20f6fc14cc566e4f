import DominionSilver.Sanity.Decode

/-! What the propose and execute instructions do: each guard, and the state
after written as an update of the state before. -/

namespace DominionSilver

open Checked Bytes Tokens

/-- The effect of an executed change, before its timelock account is closed. -/
inductive Applied (rt : Runtime) (recipientAta : Pubkey) (w : World) : Change → World → Prop
  | premiumMint {newBps} (bound : newBps ≤ 500) :
      Applied rt recipientAta w (.premiumMint newBps)
        { w with config := { w.config with premiumBpsMint := newBps, mintPausedUntil := 0 } }
  | premiumRedeem {newBps} (bound : newBps ≤ 500) :
      Applied rt recipientAta w (.premiumRedeem newBps)
        { w with config := { w.config with premiumBpsRedeem := newBps } }
  | withdrawUsdc {amount recipient treasury ata usdc}
      (vault : w.usdc.lookup w.config.usdcTreasury = some treasury)
      (supplied : w.usdc.lookup recipientAta = some ata) (mint : ata.mint = w.config.usdcMint)
      (owner : ata.owner = recipient) (unpaused : w.config.paused = false) (positive : 0 < amount)
      (float : w.config.treasuryMinFloatUsdc.toNat + amount.toNat ≤ treasury.amount.toNat)
      (moved : rt.tokens.transferChecked w.usdc w.config.usdcMint w.config.usdcTreasury
        recipientAta rt.treasuryPda amount w.usdcDecimals = some usdc) :
      Applied rt recipientAta w (.withdrawUsdc amount recipient) { w with usdc }
  | treasuryFloat {newFloatUsdc} (bound : newFloatUsdc ≤ 100000000000000) :
      Applied rt recipientAta w (.treasuryFloat newFloatUsdc)
        { w with config := { w.config with treasuryMinFloatUsdc := newFloatUsdc } }
  | oracleGuards {g : OracleGuardsArgs}
      (staleness : ∀ v, g.staleness = some v → StalenessInBounds v)
      (confBps : ∀ v, g.confBps = some v → ConfBpsInBounds v)
      (minPrice : ∀ v, g.minPriceScaled = some v → MinPriceInBounds v)
      (maxPrice : MaxPriceInBounds (g.maxPriceScaled.getD w.config.maxPriceUsdScaled))
      (ordered : g.minPriceScaled.getD w.config.minPriceUsdScaled = 0 ∨
        g.minPriceScaled.getD w.config.minPriceUsdScaled <
          g.maxPriceScaled.getD w.config.maxPriceUsdScaled)
      (maxDelta : ∀ v, g.maxDeltaBps = some v → MaxDeltaBpsInBounds v)
      (decay : ∀ v, g.decaySeconds = some v → DecaySecondsInBounds v)
      (dust : ∀ v, g.dustFilterMinUsdc = some v → v ≤ 1000000000000)
      (publishers : ∀ v, g.minPublishers = some v → 2 ≤ v) :
      Applied rt recipientAta w (.oracleGuards g)
        { w with config := { w.config with
          maxStalenessSeconds := g.staleness.getD w.config.maxStalenessSeconds
          maxConfidenceBps := g.confBps.getD w.config.maxConfidenceBps
          minPriceUsdScaled := g.minPriceScaled.getD w.config.minPriceUsdScaled
          maxPriceUsdScaled := g.maxPriceScaled.getD w.config.maxPriceUsdScaled
          maxPriceDeltaBps := g.maxDeltaBps.getD w.config.maxPriceDeltaBps
          priceDeltaDecaySeconds := g.decaySeconds.getD w.config.priceDeltaDecaySeconds
          priceUpdateMinAmountUsdc := g.dustFilterMinUsdc.getD w.config.priceUpdateMinAmountUsdc
          minPublishers := g.minPublishers.getD w.config.minPublishers
          paused := true } }
  | metadata {args m₁ m₂ silvMint} (valid : validateMetadataArgs args = .ok ())
      (name : updateMetadataField rt .name args.name w.silvMint = .ok m₁)
      (symbol : updateMetadataField rt .symbol args.symbol m₁ = .ok m₂)
      (uri : updateMetadataField rt .uri args.uri m₂ = .ok silvMint) :
      Applied rt recipientAta w (.metadata args) { w with silvMint }
  | complianceMode {newValue} (changed : newValue ≠ w.config.complianceMode) :
      Applied rt recipientAta w (.complianceMode newValue)
        { w with config := { w.config with complianceMode := newValue, paused := true } }
  | pythFeed {newLazerFeedId} (nonzero : newLazerFeedId ≠ 0) :
      Applied rt recipientAta w (.pythFeed newLazerFeedId)
        { w with config := { w.config with pythLazerFeedId := newLazerFeedId, paused := true } }
  | adminTimelock {newSeconds} (lower : 86400 ≤ newSeconds) (upper : newSeconds ≤ 604800) :
      Applied rt recipientAta w (.adminTimelock newSeconds)
        { w with config := { w.config with adminTimelockSeconds := newSeconds } }
  | redeemLimits {args} (unpaused : w.config.paused = false)
      (ceilings : args.validateCeilings = .ok ()) :
      Applied rt recipientAta w (.redeemLimits args) { w with config := args.writeTo w.config }
  | publicMint (unpaused : w.config.paused = false) (closed : w.config.publicMintEnabled = false) :
      Applied rt recipientAta w (.publicMint true)
        { w with config := { w.config with publicMintEnabled := true } }
  | inventoryWallet {newWallet} (unpaused : w.config.paused = false)
      (nonzero : newWallet ≠ Bytes32.zero) (changed : newWallet ≠ w.config.inventoryWallet) :
      Applied rt recipientAta w (.inventoryWallet newWallet)
        { w with config := { w.config with inventoryWallet := newWallet } }

/-- The effect of an action's execute handler. -/
def effectOf (rt : Runtime) (recipientAta : Pubkey) :
    TimelockAction → List UInt8 → World → Result World
  | .setPremiumMint => premiumMintEffect
  | .setPremiumRedeem => premiumRedeemEffect
  | .withdrawUsdc => withdrawUsdcEffect rt recipientAta
  | .setTreasuryFloat => treasuryMinFloatEffect
  | .setOracleGuards => oracleGuardsEffect
  | .updateMetadata => metadataEffect rt
  | .setComplianceMode => complianceModeEffect
  | .setPythFeed => pythFeedEffect
  | .setAdminTimelock => adminTimelockEffect
  | .setRedeemLimits => redeemLimitsEffect
  | .setPublicMint => publicMintEffect
  | .setInventoryWallet => inventoryWalletEffect

theorem executeHandler_eq (rt : Runtime) (recipientAta : Pubkey) (k : TimelockAction) :
    executeHandler rt recipientAta k = execute k (effectOf rt recipientAta k) := by
  cases k <;> rfl

theorem decodeWord_ok {α : Type} [Word α] {data : List UInt8} {a : α} :
    decodeWord α data = .ok a ↔ fromLEBytes α data = some a := okOr_ok

theorem decodeArgs_ok {α : Type} [Codec α] {data : List UInt8} {a : α} :
    decodeArgs α data = .ok a ↔ Codec.tryFromSlice α data = some a := okOr_ok

theorem applied_of_effect {rt : Runtime} {recipientAta : Pubkey} {k : TimelockAction}
    {data : List UInt8} {w w' : World} (h : effectOf rt recipientAta k data w = .ok w') :
    ∃ change, decodeChange k data = some change ∧ change.kind = k ∧
      Applied rt recipientAta w change w' := by
  cases k with
  | setPremiumMint =>
    simp only [effectOf, premiumMintEffect, ConfigAccount.assertPremiumWithinBounds, bind_ok,
      decodeWord_ok, require_ok, exists_unit, pure_ok] at h
    obtain ⟨newBps, hd, hb, -, -, rfl⟩ := h
    exact ⟨_, by rw [decodeChange, hd]; rfl, rfl, .premiumMint hb⟩
  | setPremiumRedeem =>
    simp only [effectOf, premiumRedeemEffect, ConfigAccount.assertPremiumWithinBounds, bind_ok,
      decodeWord_ok, require_ok, exists_unit, pure_ok] at h
    obtain ⟨newBps, hd, hb, -, -, rfl⟩ := h
    exact ⟨_, by rw [decodeChange, hd]; rfl, rfl, .premiumRedeem hb⟩
  | withdrawUsdc =>
    simp only [effectOf, withdrawUsdcEffect, bind_ok, existing_ok, tokenAccount_ok, decodeWord_ok,
      require_ok, orOverflow_ok, cpi_ok, exists_unit, pure_ok, checkedSub_eq_some,
      word_uint64] at h
    obtain ⟨treasury, ht, ata, ⟨ha, hm⟩, hp, -, amount, hd, recipient, hr, hpos, ho, -, post, hpost,
      hfloat, usdc, hmoved, rfl⟩ := h
    have hle := UInt64.le_iff_toNat_le.1 hfloat
    exact ⟨_, by rw [decodeChange, hd, Option.bind_some, hr]; rfl, rfl,
      .withdrawUsdc ht ha hm ho hp hpos (by omega) hmoved⟩
  | setTreasuryFloat =>
    simp only [effectOf, treasuryMinFloatEffect, bind_ok, decodeWord_ok, require_ok, exists_unit,
      pure_ok] at h
    obtain ⟨v, hd, hb, rfl⟩ := h
    exact ⟨_, by rw [decodeChange, hd]; rfl, rfl, .treasuryFloat hb⟩
  | setOracleGuards =>
    simp only [effectOf, oracleGuardsEffect, bind_ok, decodeArgs_ok, require_ok, requireSome_ok,
      exists_unit, pure_ok] at h
    obtain ⟨g, hd, h1, h2, h3, h4, h5, h6, h7, h8, h9, rfl⟩ := h
    exact ⟨_, by rw [decodeChange, hd]; rfl, rfl, .oracleGuards h1 h2 h3 h4 h5 h6 h7 h8 h9⟩
  | updateMetadata =>
    simp only [effectOf, metadataEffect, bind_ok, decodeArgs_ok, exists_unit, pure_ok] at h
    obtain ⟨args, hd, hv, m₁, h1, m₂, h2, m₃, h3, rfl⟩ := h
    exact ⟨_, by rw [decodeChange, hd]; rfl, rfl, .metadata hv h1 h2 h3⟩
  | setComplianceMode =>
    simp only [effectOf, complianceModeEffect, bind_ok, require_ok, exists_unit, pure_ok] at h
    obtain ⟨hc, rfl⟩ := h
    exact ⟨_, rfl, rfl, .complianceMode hc⟩
  | setPythFeed =>
    simp only [effectOf, pythFeedEffect, bind_ok, decodeWord_ok, require_ok, exists_unit,
      pure_ok] at h
    obtain ⟨v, hd, hz, rfl⟩ := h
    exact ⟨_, by rw [decodeChange, hd]; rfl, rfl, .pythFeed hz⟩
  | setAdminTimelock =>
    simp only [effectOf, adminTimelockEffect, bind_ok, decodeWord_ok, require_ok, exists_unit,
      pure_ok] at h
    obtain ⟨v, hd, hl, hu, rfl⟩ := h
    exact ⟨_, by rw [decodeChange, hd]; rfl, rfl, .adminTimelock hl hu⟩
  | setRedeemLimits =>
    simp only [effectOf, redeemLimitsEffect, bind_ok, decodeArgs_ok, require_ok, exists_unit,
      pure_ok] at h
    obtain ⟨hp, args, hd, hv, rfl⟩ := h
    exact ⟨_, by rw [decodeChange, hd]; rfl, rfl, .redeemLimits hp hv⟩
  | setPublicMint =>
    simp only [effectOf, publicMintEffect, bind_ok, require_ok, exists_unit, pure_ok] at h
    obtain ⟨hp, -, hv, hc, rfl⟩ := h
    rw [hv] at hc ⊢
    have hclosed : w.config.publicMintEnabled = false := Bool.eq_false_iff.2 fun ht => hc ht.symm
    exact ⟨_, by rw [decodeChange, hv], rfl, .publicMint hp hclosed⟩
  | setInventoryWallet =>
    simp only [effectOf, inventoryWalletEffect, bind_ok, okOr_ok, require_ok, exists_unit,
      pure_ok] at h
    obtain ⟨hp, k, hd, hz, hc, rfl⟩ := h
    exact ⟨_, by rw [decodeChange, hd]; rfl, rfl, .inventoryWallet hp hz hc⟩

/-- What a proposal of `change` by `admin` at `now` finds and stores. -/
structure Queued (change : Change) (now : ℤ) (admin : Pubkey) (w : World) (data : List UInt8)
    (executableAt : ℤ) (nextNonce : UInt64) (count : UInt8) : Prop where
  admin : w.config.admin = admin
  unused : w.timelocks.lookup w.config.nextTimelockNonce = none
  free : w.config.pendingNonce change.kind = none
  room : w.config.activeProposalCount < 10
  encode : change.encode = .ok data
  executableAt : executableAt = now + w.config.adminTimelockSeconds.toNat
  nextNonce : nextNonce.toNat = w.config.nextTimelockNonce.toNat + 1
  count : count.toNat = w.config.activeProposalCount.toNat + 1

/-- The timelock account of a queued change. -/
def queuedAccount (change : Change) (now : ℤ) (admin : Pubkey) (w : World) (data : List UInt8)
    (executableAt : ℤ) : TimelockQueueAccount where
  nonce := w.config.nextTimelockNonce
  actionDisc := change.kind.disc
  actionData := data
  scheduledAt := now
  executableAt := executableAt
  executedAt := none
  cancelled := false
  proposer := admin
  rentPayer := admin

theorem propose_ok {change : Change} {check : ConfigAccount → Result Unit} {now : ℤ}
    {admin : Pubkey} {w w' : World} (h : propose change check now admin w = .ok w') :
    ∃ data executableAt nextNonce count,
      Queued change now admin w data executableAt nextNonce count ∧ check w.config = .ok () ∧
      w' = { w with
        config := { w.config with
          nextTimelockNonce := nextNonce, activeProposalCount := count
          pendingNonce := Function.update w.config.pendingNonce change.kind
            (some w.config.nextTimelockNonce) }
        timelocks := w.timelocks.insert w.config.nextTimelockNonce
          (queuedAccount change now admin w data executableAt) } := by
  simp only [propose, bind_ok, requireAdmin_ok, constrain_ok, require_ok, orOverflow_ok,
    checkedI64_eq_some, checkedAdd_eq_some, word_uint64, word_uint8, exists_unit, pure_ok] at h
  obtain ⟨ha, hu, hc, hf, hr, eta, ⟨-, he⟩, data, hd, next, hn, count, hcount, rfl⟩ := h
  exact ⟨data, eta, next, count, ⟨ha, hu, hf, hr, hd, he, hn, hcount⟩, hc, rfl⟩

theorem exists_premiumMint {change : Change} (hk : change.kind = .setPremiumMint) :
    ∃ newBps, change = .premiumMint newBps := by
  cases change with
  | premiumMint newBps => exact ⟨newBps, rfl⟩
  | _ => cases hk

/-- Every propose handler but that of the mint premium is `propose` with checks of its own; those
on opening the public mint ask for a closed one. -/
theorem proposeHandler_eq {change : Change} (hk : change.kind ≠ .setPremiumMint) :
    ∃ check, proposeHandler change = propose change check ∧
      ∀ v c, change = .publicMint v → check c = .ok () → c.publicMintEnabled = false := by
  cases change with
  | premiumMint newBps => exact absurd rfl hk
  | publicMint newValue =>
    simp only [proposeHandler]
    refine ⟨_, rfl, ?_⟩
    intro v c _ hc
    simp only [bind_ok, require_ok, exists_unit] at hc
    rw [hc.1] at hc
    exact Bool.eq_false_iff.2 fun ht => hc.2 ht.symm
  | _ => simp only [proposeHandler]; exact ⟨_, rfl, fun _ _ h _ => nomatch h⟩

/-- Every propose handler queues its change; that of the mint premium also pauses public mints. -/
theorem proposeHandler_ok {change : Change} {now : ℤ} {admin : Pubkey} {w w' : World}
    (h : proposeHandler change now admin w = .ok w') :
    ∃ data executableAt nextNonce count mintPausedUntil,
      Queued change now admin w data executableAt nextNonce count ∧
      mintPausedUntil = (if change.kind = .setPremiumMint then executableAt
        else w.config.mintPausedUntil) ∧
      (∀ v, change = .publicMint v → w.config.publicMintEnabled = false) ∧
      w' = { w with
        config := { w.config with
          nextTimelockNonce := nextNonce, activeProposalCount := count
          pendingNonce := Function.update w.config.pendingNonce change.kind
            (some w.config.nextTimelockNonce)
          mintPausedUntil := mintPausedUntil }
        timelocks := w.timelocks.insert w.config.nextTimelockNonce
          (queuedAccount change now admin w data executableAt) } := by
  by_cases hk : change.kind = .setPremiumMint
  · obtain ⟨newBps, rfl⟩ := exists_premiumMint hk
    simp only [proposeHandler, proposeSetPremiumMintHandler, bind_ok, pure_ok] at h
    obtain ⟨w₁, h, rfl⟩ := h
    obtain ⟨data, eta, next, count, hq, -, rfl⟩ := propose_ok h
    exact ⟨data, eta, next, count, eta, hq, (if_pos rfl).symm, by simp, by rw [hq.executableAt]⟩
  · obtain ⟨check, he, hopen⟩ := proposeHandler_eq hk
    rw [he] at h
    obtain ⟨data, eta, next, count, hq, hc, rfl⟩ := propose_ok h
    exact ⟨data, eta, next, count, _, hq, (if_neg hk).symm, fun v hv => hopen v _ hv hc, rfl⟩

end DominionSilver
