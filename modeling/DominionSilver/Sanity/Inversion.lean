import DominionSilver.Sanity.Effects

/-! A successful instruction has its effect: the handlers read backwards, from
the result to what each check found. -/

namespace DominionSilver

open Checked Bytes Tokens

section Priced

theorem maybeUpdateLastPrice_eq (c : ConfigAccount) (price : ℕ) (amount : UInt64) (now : ℤ) :
    maybeUpdateLastPrice c price amount now =
      { c with
        lastRecordedPriceScaled := (recordedPrice c price amount now).1
        lastPriceUpdateAt := (recordedPrice c price amount now).2 } := by
  unfold maybeUpdateLastPrice recordedPrice
  split_ifs <;> rfl

variable {rt : Runtime} {now : ℤ} {user : Pubkey} {w w' : World}

theorem effect_mintSilv {amountUsdc minSilvOut : UInt64} {accounts : PricedAccounts}
    (h : mintSilvHandler rt amountUsdc minSilvOut accounts now user w = .ok w') :
    Effect rt now user w (.mintSilv amountUsdc minSilvOut accounts) w' := by
  simp only [mintSilvHandler, bind_ok, existing_ok, associated_ok, require_ok, cpi_ok,
    exists_unit, pure_ok] at h
  obtain ⟨treasury, htreasury, feeVault, hfee, source, hsource, silv₀, hsilv, exempt, hexempt,
    kyc, hkyc, hpaused, hopen, hresumed, hslot, henforce, hpos, hleast, price, hread, hdelta, hmint,
    q, hq, usdc₁, h₁, usdc, h₂, ⟨silvMint, silv⟩, hissue, rfl⟩ := h
  rw [maybeUpdateLastPrice_eq]
  exact .mintSilv ⟨⟨_, htreasury⟩, ⟨_, hfee⟩, ⟨_, hsource⟩, hpaused, hopen, hresumed, hslot,
    ⟨_, hkyc, henforce⟩, hpos, hleast, hread, hdelta, hmint, ⟨_, hexempt, hq⟩, rfl,
    ⟨_, h₁, h₂⟩, ⟨_, hsilv, hissue⟩⟩

theorem effect_redeemSilv {amountSilv minUsdcOut : UInt64} {accounts : PricedAccounts}
    (h : redeemSilvHandler rt amountSilv minUsdcOut accounts now user w = .ok w') :
    Effect rt now user w (.redeemSilv amountSilv minUsdcOut accounts) w' := by
  simp only [redeemSilvHandler, bind_ok, existing_ok, associated_ok, require_ok, cpi_ok,
    exists_unit, pure_ok] at h
  obtain ⟨treasury, htreasury, feeVault, hfee, usdc₀, husdc, source, hsource, exempt, hexempt,
    kyc, hkyc, hpaused, henabled, henforce, hpos, price, hread, hdelta, hmint, q, hq,
    ⟨silvMint, silv⟩, hburn, usdc₁, h₁, usdc, h₂, rfl⟩ := h
  rw [maybeUpdateLastPrice_eq]
  exact .redeemSilv ⟨⟨_, hfee⟩, ⟨_, hsource⟩, hpaused, henabled, ⟨_, hkyc, henforce⟩, hpos, hread,
    hdelta, hmint, ⟨_, _, hexempt, htreasury, hq⟩, rfl, hburn, ⟨_, _, husdc, h₁, h₂⟩⟩

theorem effect_adminPremint {amount : UInt64} {ata : Pubkey}
    (h : premintHandler rt amount ata user w = .ok w') :
    Effect rt now user w (.adminPremint amount ata) w' := by
  simp only [premintHandler, bind_ok, requireAdmin_ok, tokenAccount_ok, require_ok, orOverflow_ok,
    cpi_ok, exists_unit, pure_ok] at h
  obtain ⟨ha, a, ⟨hs, hm⟩, hpos, hp, hw, ho, hassert, post, hpost, hcap, ⟨silvMint, silv⟩, hissue,
    rfl⟩ := h
  exact .adminPremint ha hs hm hpos hp hw ho hassert hpost hcap hissue

theorem effect_depositUsdc {amount : UInt64} {ata : Pubkey}
    (h : depositUsdcHandler rt amount ata user w = .ok w') :
    Effect rt now user w (.depositUsdc amount ata) w' := by
  simp only [depositUsdcHandler, bind_ok, existing_ok, tokenAccount_ok, require_ok, cpi_ok,
    exists_unit, pure_ok] at h
  obtain ⟨treasury, ht, a, ⟨hs, hm⟩, hl, usdc, hmoved, post, hpost, hc, rfl⟩ := h
  exact .depositUsdc ht hs hm hl hmoved hpost hc

end Priced

section Admin

variable {rt : Runtime} {now : ℤ} {signer : Pubkey} {w w' : World}

theorem effect_withdrawFees {amount : UInt64} {destination : Pubkey}
    (h : withdrawFeesHandler rt amount destination signer w = .ok w') :
    Effect rt now signer w (.withdrawFees amount destination) w' := by
  simp only [withdrawFeesHandler, bind_ok, requireAdmin_ok, existing_ok, associated_ok,
    tokenAccount_ok, require_ok, cpi_ok, exists_unit, pure_ok] at h
  obtain ⟨ha, vault, ⟨hv, hvo⟩, dest, ⟨hd, hdm⟩, treasury, ht, hp, hpos, hfloat, hne, hdo, hle,
    usdc, hmoved, rfl⟩ := h
  exact .withdrawFees ha ⟨⟨_, hv, hvo, hle⟩, ⟨_, hd, hdm, hdo⟩, ⟨_, ht, hfloat⟩, hp, hpos, hne,
    hmoved⟩

theorem effect_emergencyTighten {args : RedeemLimitsArgs}
    (h : emergencyTightenRedeemLimitsHandler args signer w = .ok w') :
    Effect rt now signer w (.emergencyTightenRedeemLimits args) w' := by
  simp only [emergencyTightenRedeemLimitsHandler, bind_ok, requireAdmin_ok, require_ok,
    exists_unit, pure_ok] at h
  obtain ⟨ha, hs, hc, ht, he, rfl⟩ := h
  refine cast (congrArg (Effect rt now signer w _) ?_)
    (.emergencyTightenRedeemLimits ha hs hc ht he rfl)
  split_ifs <;> rfl

theorem effect_addGuardian {k : Pubkey} (h : addGuardianHandler k now signer w = .ok w') :
    Effect rt now signer w (.addGuardian k) w' := by
  simp only [addGuardianHandler, bind_ok, requireAdmin_ok, require_ok, exists_unit, pure_ok] at h
  obtain ⟨ha, hn, hp, hcool, hidle, hroom, hun, rfl⟩ := h
  exact .addGuardian ha hn hp hcool hidle hroom hun

theorem effect_removeGuardian {k : Pubkey} (h : removeGuardianHandler k now signer w = .ok w') :
    Effect rt now signer w (.removeGuardian k) w' := by
  simp only [removeGuardianHandler, bind_ok, requireAdmin_ok, existing_ok, require_ok,
    orOverflow_ok, checkedI64_eq_some, exists_unit] at h
  obtain ⟨ha, g, hg, ho, hc, hs, eta, ⟨-, heta⟩, h⟩ := h
  split_ifs at h with h0
  · simp only [bind_ok, require_ok, orOverflow_ok, exists_unit, checkedAdd_eq_some, word_uint8,
      pure_ok] at h
    obtain ⟨hm, count, hcount, rfl⟩ := h
    exact .removeGuardian ha hg ho hc heta (.inl ⟨h0, hm, hcount⟩)
  · simp only [bind_ok, pure_ok] at h
    obtain ⟨count, rfl, rfl⟩ := h
    exact .removeGuardian ha hg ho hc heta (.inr ⟨h0, hs.resolve_left h0, rfl⟩)

theorem effect_finalizeGuardianRemoval {k : Pubkey}
    (h : finalizeGuardianRemovalHandler k now w = .ok w') :
    Effect rt now signer w (.finalizeGuardianRemoval k) w' := by
  simp only [finalizeGuardianRemovalHandler, bind_ok, existing_ok, require_ok, okOr_ok,
    orOverflow_ok, checkedI64_eq_some, checkedSub_eq_some, word_uint8, exists_unit, pure_ok] at h
  obtain ⟨g, hg, ho, hc, hs, hdue, htime, hfloor, cooldown, ⟨-, hcd⟩, count, hcount, pending, hp,
    rfl⟩ := h
  exact .finalizeGuardianRemoval hg ho hc hs hdue htime hfloor hcd hcount hp

theorem effect_cancelGuardianRemoval {k : Pubkey}
    (h : cancelGuardianRemovalHandler k now signer w = .ok w') :
    Effect rt now signer w (.cancelGuardianRemoval k) w' := by
  simp only [cancelGuardianRemovalHandler, bind_ok, existing_ok, require_ok, exists_unit] at h
  obtain ⟨g, hg, ho, hs, h⟩ := h
  split_ifs at h with h1 h2 h3
  · simp only [bind_ok, orOverflow_ok, checkedSub_eq_some, word_uint8, pure_ok] at h
    obtain ⟨used, rfl, pending, hp, rfl⟩ := h
    exact .cancelGuardianRemoval hg ho hs (.inl ⟨rfl, .inl h1⟩) hp
  · simp only [bind_ok, orOverflow_ok, checkedSub_eq_some, word_uint8, pure_ok] at h
    obtain ⟨used, rfl, pending, hp, rfl⟩ := h
    exact .cancelGuardianRemoval hg ho hs (.inl ⟨rfl, .inr h2⟩) hp
  · simp only [bind_ok, require_ok, orOverflow_ok, checkedSub_eq_some, word_uint8, exists_unit,
      pure_ok] at h
    obtain ⟨hused, used, rfl, pending, hp, rfl⟩ := h
    exact .cancelGuardianRemoval hg ho hs (.inr ⟨rfl, h3, hused⟩) hp
  · cases h

theorem effect_proposeAdminTransfer {newAdmin : Pubkey}
    (h : proposeAdminTransferHandler newAdmin now signer w = .ok w') :
    Effect rt now signer w (.proposeAdminTransfer newAdmin) w' := by
  simp only [proposeAdminTransferHandler, bind_ok, requireAdmin_ok, require_ok, orOverflow_ok,
    checkedI64_eq_some, exists_unit, pure_ok] at h
  obtain ⟨ha, hf, hz, hne, eta, ⟨-, heta⟩, expires, ⟨-, hexp⟩, rfl⟩ := h
  exact .proposeAdminTransfer ha hf hz hne heta hexp

theorem effect_acceptAdminTransfer (h : acceptAdminTransferHandler now signer w = .ok w') :
    Effect rt now signer w .acceptAdminTransfer w' := by
  simp only [acceptAdminTransferHandler, bind_ok, okOr_ok, require_ok, exists_unit, pure_ok] at h
  obtain ⟨pending, hp, rfl, ht, hdue, rfl⟩ := h
  exact .acceptAdminTransfer hp ht hdue

end Admin

section Timelock

variable {rt : Runtime} {now : ℤ} {signer : Pubkey} {w w' : World}

theorem openTimelock_ok {k : TimelockAction} {nonce : UInt64} {rentRecipient : Pubkey}
    {tl : TimelockQueueAccount} (h : openTimelock k nonce now signer rentRecipient w = .ok tl) :
    Opened k nonce now signer rentRecipient w tl := by
  simp only [openTimelock, bind_ok, requireAdmin_ok, existing_ok, require_ok, constrain_ok,
    exists_unit, pure_ok] at h
  obtain ⟨ha, t, ht, hc, he, hr, hn, hd, hs, hdue, rfl⟩ := h
  exact ⟨ha, ht, hc, he, hr, hn, hd, hs, hdue⟩

theorem effect_execute {k : TimelockAction} {nonce : UInt64} {rentRecipient recipientAta : Pubkey}
    (h : executeHandler rt recipientAta k nonce now signer rentRecipient w = .ok w') :
    Effect rt now signer w (.execute k nonce rentRecipient recipientAta) w' := by
  rw [executeHandler_eq] at h
  simp only [execute, bind_ok, pure_ok] at h
  obtain ⟨tl, ho, w₁, he, rfl⟩ := h
  obtain ⟨change, hd, hk, ha⟩ := applied_of_effect he
  exact .execute (openTimelock_ok ho) hd hk ha

theorem disarmIfMine_eq (c : ConfigAccount) (k : TimelockAction) (nonce : UInt64) :
    disarmIfMine c k nonce =
      { c with
        pendingNonce := if c.pendingNonce k = some nonce then Function.update c.pendingNonce k none
          else c.pendingNonce
        mintPausedUntil := if k = .setPremiumMint ∧ c.pendingNonce .setPremiumMint = some nonce
          then 0 else c.mintPausedUntil } := by
  unfold disarmIfMine shouldDisarm ConfigAccount.disarm
  by_cases hn : c.pendingNonce k = some nonce
  · by_cases hk : k = .setPremiumMint
    · subst hk; simp [hn]
    · simp [hn, hk]
  · by_cases hk : k = .setPremiumMint
    · subst hk; simp [hn]
    · simp [hn, hk]

theorem effect_cancelTimelockedAction {nonce : UInt64} {suppliesGuardian : Bool}
    {rentRecipient : Pubkey}
    (h : cancelTimelockedHandler nonce suppliesGuardian signer rentRecipient w = .ok w') :
    Effect rt now signer w (.cancelTimelockedAction nonce suppliesGuardian rentRecipient) w' := by
  simp only [cancelTimelockedHandler, bind_ok, existing_ok, require_ok, constrain_ok, exists_unit,
    pure_ok] at h
  obtain ⟨tl, ht, hc, he, hr, g, hg, hauth, hn, rfl⟩ := h
  cases hk : TimelockAction.ofDisc? tl.actionDisc with
  | none =>
    have hd : tl.actionDisc ≠ TimelockAction.setPremiumMint.disc := fun e => by
      rw [e, TimelockAction.ofDisc?_disc] at hk; cases hk
    exact .cancelTimelockedAction ht hc he hr ⟨g, hg, hauth⟩ hn (by rw [hk])
      (by rw [if_neg fun h => hd h.1])
  | some k =>
    have hd := TimelockAction.ofDisc?_eq_some.1 hk
    simp only [disarmIfMine_eq]
    exact .cancelTimelockedAction ht hc he hr ⟨g, hg, hauth⟩ hn (by rw [hk])
      (by simp only [hd, TimelockAction.disc_injective.eq_iff])

end Timelock

theorem effect_of_exec {rt : Runtime} {c : Call} {w w' : World} (h : exec rt c w = .ok w') :
    rt.canSign c.signer = true ∧ Effect rt c.now c.signer w c.ix w' := by
  obtain ⟨now, _, signer, ix⟩ := c
  simp only [exec, bind_ok, constrain_ok, exists_unit] at h
  obtain ⟨hs, h⟩ := h
  refine ⟨hs, ?_⟩
  cases ix with
  | initializeAgain => cases h
  | mintSilv amountUsdc minSilvOut accounts => exact effect_mintSilv h
  | redeemSilv amountSilv minUsdcOut accounts => exact effect_redeemSilv h
  | depositUsdc amount userUsdcAta => exact effect_depositUsdc h
  | setFeeExempt wallet flags expiresAt =>
    simp only [dispatch, setFeeExemptHandler, validateFeeExemptFlags, validateFeeExemptExpiry,
      bind_ok, requireAdmin_ok, require_ok, exists_unit, pure_ok] at h
    obtain ⟨ha, hf, ⟨hfut, hterm⟩, rfl⟩ := h
    exact .setFeeExempt ha hf hfut hterm rfl
  | removeFeeExempt wallet =>
    simp only [dispatch, removeFeeExemptHandler, bind_ok, requireAdmin_ok, existing_ok, require_ok,
      exists_unit, pure_ok] at h
    obtain ⟨ha, acc, hacc, ho, rfl⟩ := h
    exact .removeFeeExempt ha hacc ho
  | withdrawFees amount destination => exact effect_withdrawFees h
  | setFeeRoutingEnabled enabled =>
    simp only [dispatch, setFeeRoutingEnabledHandler, bind_ok, requireAdmin_ok, require_ok,
      exists_unit, pure_ok] at h
    obtain ⟨ha, hc, rfl⟩ := h
    exact .setFeeRoutingEnabled ha hc
  | setKycOperator operator =>
    simp only [dispatch, setKycOperatorHandler, bind_ok, requireAdmin_ok, exists_unit, pure_ok] at h
    obtain ⟨ha, hv, rfl⟩ := h
    exact .setKycOperator ha hv
  | setKycScope flags =>
    simp only [dispatch, setKycScopeHandler, validateKycScope, bind_ok, requireAdmin_ok, require_ok,
      exists_unit, pure_ok] at h
    obtain ⟨ha, hf, hc, harm, rfl⟩ := h
    exact .setKycScope ha hf hc harm
  | attestKyc wallet reference =>
    simp only [dispatch, attestKycHandler, validateKycSubject, bind_ok, require_ok, exists_unit,
      pure_ok] at h
    obtain ⟨ha, hz, count, hcount, rfl⟩ := h
    exact .attestKyc ha hz hcount
  | revokeKyc wallet allowDisarm =>
    simp only [dispatch, revokeKycHandler, bind_ok, existing_ok, require_ok, exists_unit,
      pure_ok] at h
    obtain ⟨ha, acc, hacc, ho, outcome, hout, rfl⟩ := h
    exact .revokeKyc ha hacc ho hout
  | pause suppliesGuardian =>
    simp only [dispatch, pauseHandler, bind_ok, require_ok, exists_unit, pure_ok] at h
    obtain ⟨g, hg, ha, rfl⟩ := h
    exact .pause ⟨g, hg, ha⟩
  | unpause digest guardian =>
    simp only [dispatch, unpauseHandler, bind_ok, requireAdmin_ok, existing_ok, constrain_ok,
      require_ok, exists_unit, pure_ok] at h
    obtain ⟨ha, g, hg, ho, hc, hcount, hi, hr, rfl⟩ := h
    exact .unpause ha hg ho hc hcount hi hr
  | setMaxSilvSupply newMax =>
    simp only [dispatch, setMaxSilvSupplyHandler, validateNewMaxSupply, bind_ok, requireAdmin_ok,
      require_ok, exists_unit, pure_ok] at h
    obtain ⟨ha, ⟨hceil, hlow, hcov⟩, rfl⟩ := h
    exact .setMaxSilvSupply ha hceil hlow hcov
  | setPublicMintEnabled enabled =>
    simp only [dispatch, setPublicMintEnabledHandler, bind_ok, requireAdmin_ok, require_ok,
      exists_unit, pure_ok] at h
    obtain ⟨ha, rfl, ho, rfl⟩ := h
    exact .setPublicMintEnabled ha (Bool.not_eq_false _ ▸ ho)
  | setRedemptionsEnabled enabled =>
    simp only [dispatch, setRedemptionsEnabledHandler, bind_ok, requireAdmin_ok, require_ok,
      exists_unit, pure_ok] at h
    obtain ⟨ha, rfl, he, rfl⟩ := h
    exact .setRedemptionsEnabled ha he
  | setMinOperationUsdc newMinUsdc =>
    simp only [dispatch, setMinOperationUsdcHandler, validateMinOperation, bind_ok, requireAdmin_ok,
      require_ok, exists_unit, pure_ok] at h
    obtain ⟨ha, ⟨hc, hne⟩, rfl⟩ := h
    exact .setMinOperationUsdc ha hc hne
  | emergencyTightenRedeemLimits args => exact effect_emergencyTighten h
  | adminPremint amount inventorySilvAta => exact effect_adminPremint h
  | addGuardian guardianPubkey => exact effect_addGuardian h
  | removeGuardian guardianPubkey => exact effect_removeGuardian h
  | finalizeGuardianRemoval guardianPubkey => exact effect_finalizeGuardianRemoval h
  | cancelGuardianRemoval guardianPubkey => exact effect_cancelGuardianRemoval h
  | proposeAdminTransfer newAdmin => exact effect_proposeAdminTransfer h
  | acceptAdminTransfer => exact effect_acceptAdminTransfer h
  | cancelAdminTransfer suppliesGuardian =>
    simp only [dispatch, cancelAdminTransferHandler, bind_ok, require_ok, exists_unit, pure_ok] at h
    obtain ⟨g, hg, ha, rfl⟩ := h
    exact .cancelAdminTransfer ⟨g, hg, ha⟩
  | cancelTimelockedAction nonce suppliesGuardian rentRecipient =>
    exact effect_cancelTimelockedAction h
  | propose change =>
    obtain ⟨data, eta, next, count, paused, hq, hp, hc, rfl⟩ := proposeHandler_ok h
    exact .propose hq hp hc
  | execute action nonce rentRecipient recipientAta => exact effect_execute h

theorem effect_of_call {rt : Runtime} {c : Call} {w w' : World} {ix : Instruction}
    (h : exec rt c w = .ok w') (hix : c.ix = ix) : Effect rt c.now c.signer w ix w' :=
  hix ▸ (effect_of_exec h).2

section Converse

variable {rt : Runtime} {w w' : World} {c : Call} {accounts : PricedAccounts}

/-- An instruction whose handler succeeds where it may have its effect is accepted exactly there. -/
theorem exec_iff_effect {ix : Instruction} (hix : c.ix = ix)
    (hd : Effect rt c.now c.signer w ix w' → dispatch rt c.now c.signer ix w = .ok w') :
    exec rt c w = .ok w' ↔ rt.canSign c.signer = true ∧ Effect rt c.now c.signer w ix w' := by
  constructor
  · intro h
    exact ⟨(effect_of_exec h).1, effect_of_call h hix⟩
  · rintro ⟨hs, he⟩
    simp only [exec, hix, bind_ok, constrain_ok, exists_unit]
    exact ⟨hs, hd he⟩

theorem exec_mintSilv_iff {amountUsdc minSilvOut : UInt64}
    (hix : c.ix = .mintSilv amountUsdc minSilvOut accounts) :
    exec rt c w = .ok w' ↔ rt.canSign c.signer = true ∧
      Effect rt c.now c.signer w (.mintSilv amountUsdc minSilvOut accounts) w' := by
  refine exec_iff_effect hix ?_
  intro he
  cases he with
  | @mintSilv _ _ _ price q lastPrice lastAt usdc silvMint silv m =>
    obtain ⟨_, hb⟩ := m.treasury
    obtain ⟨_, hv⟩ := m.feeVault
    obtain ⟨_, hsource⟩ := m.source
    obtain ⟨_, hkyc, henforce⟩ := m.kyc
    obtain ⟨_, hexempt, hq⟩ := m.quote
    obtain ⟨_, h₁, h₂⟩ := m.paid
    obtain ⟨_, hsilv, hissue⟩ := m.issued
    simp only [dispatch, mintSilvHandler, bind_ok, existing_ok, associated_ok, require_ok, cpi_ok,
      exists_unit, pure_ok]
    refine ⟨_, hb, _, hv, _, hsource, _, hsilv, _, hexempt, _, hkyc, m.unpaused, m.opened,
      m.resumed, m.noRepricing, henforce, m.positive, m.least, price, m.read, m.delta, m.mint, q,
      hq, _, h₁, usdc, h₂, (silvMint, silv), hissue, ?_⟩
    have hrecorded : recordedPrice { w.config with
        lastUsedFeedUpdateTimestampUs := price.feedUpdateTimestampUs }
        price.normalizedPriceScaled amountUsdc c.now = (lastPrice, lastAt) := m.recorded
    rw [maybeUpdateLastPrice_eq, hrecorded]

theorem exec_redeemSilv_iff {amountSilv minUsdcOut : UInt64}
    (hix : c.ix = .redeemSilv amountSilv minUsdcOut accounts) :
    exec rt c w = .ok w' ↔ rt.canSign c.signer = true ∧
      Effect rt c.now c.signer w (.redeemSilv amountSilv minUsdcOut accounts) w' := by
  refine exec_iff_effect hix ?_
  intro he
  cases he with
  | @redeemSilv _ _ _ price q lastPrice lastAt usdc silvMint silv m =>
    obtain ⟨_, hv⟩ := m.feeVault
    obtain ⟨_, hsource⟩ := m.source
    obtain ⟨_, hkyc, henforce⟩ := m.kyc
    obtain ⟨_, treasury, hexempt, hb, hq⟩ := m.quote
    obtain ⟨_, _, hinit, h₁, h₂⟩ := m.paid
    simp only [dispatch, redeemSilvHandler, bind_ok, existing_ok, associated_ok, require_ok,
      cpi_ok, exists_unit, pure_ok]
    refine ⟨treasury, hb, _, hv, _, hinit, _, hsource, _, hexempt, _, hkyc, m.unpaused, m.enabled,
      henforce, m.positive, price, m.read, m.delta, m.mint, q, hq, (silvMint, silv), m.burned, _,
      h₁, usdc, h₂, ?_⟩
    have hrecorded : recordedPrice { w.config with
        lastUsedFeedUpdateTimestampUs := price.feedUpdateTimestampUs
        instantWindowStart := q.windowStart, instantUsedPrevUsdc := q.usedPrevUsdc
        instantUsedUsdc := q.usedUsdc }
        price.normalizedPriceScaled q.grossUsdc c.now = (lastPrice, lastAt) := m.recorded
    rw [maybeUpdateLastPrice_eq, hrecorded]

end Converse

theorem step_cases {rt : Runtime} {w w' : World} {e : Event} (h : Step rt w e w') :
    (∃ c, e = .call c ∧ rt.canSign c.signer = true ∧ Effect rt c.now c.signer w c.ix w') ∨
      (e = .external ∧ External rt w w') := by
  cases e with
  | call c => exact .inl ⟨c, rfl, effect_of_exec h⟩
  | external => exact .inr ⟨rfl, h⟩

/-- What a successful deployment finds; `w` is what it leaves. -/
structure Deployed (rt : Runtime) (args : InitializeArgs) (now : ℤ) (g : Genesis)
    (adminTimelock : UInt32) (maxGuardians : UInt8) (w : World) : Prop where
  state : ∃ usdc, initAssociated rt g.usdc rt.treasuryPda g.usdcMint = .ok usdc ∧
    w = {
      config := initialConfig rt args g adminTimelock maxGuardians
      timelocks := ∅
      guardians := (∅ : Accounts Pubkey GuardianAccount).insert args.guardian
        ⟨args.guardian, now, 0, 0, false⟩
      feeExempts := ∅
      kycs := ∅
      silvMint := g.silvMint
      usdcDecimals := g.usdcDecimals
      usdc := usdc
      silv := g.silv }
  vaults : VaultsSound rt g.usdcMint g.usdc
  feed : args.pythLazerFeedId ≠ 0
  admin : args.admin ≠ Bytes32.zero
  premiumMint : args.premiumBpsMint ≤ PREMIUM_BPS_MINT_CEILING
  premiumRedeem : args.premiumBpsRedeem ≤ PREMIUM_BPS_REDEEM_CEILING
  unissued : g.silvMint.supply = 0
  authority : g.silvMint.mintAuthority = some rt.silvMintAuthority
  timelockMin : ADMIN_TIMELOCK_MIN_SECONDS ≤ adminTimelock
  timelockMax : adminTimelock ≤ ADMIN_TIMELOCK_MAX_SECONDS
  seats : maxGuardians ≠ 0
  guardian : args.guardian ≠ Bytes32.zero
  independent : args.guardian ≠ args.admin
  inventory : args.inventoryWallet ≠ Bytes32.zero

theorem deployed_of_initialized {rt : Runtime} {now : ℤ} {w : World} (h : Initialized rt now w) :
    ∃ args g adminTimelock maxGuardians,
      Deployed rt args now g adminTimelock maxGuardians w := by
  obtain ⟨-, args, deployer, g, hv, h⟩ := h
  simp only [initializeHandler, bind_ok, okOr_ok, require_ok, exists_unit, pure_ok] at h
  obtain ⟨usdc, husdc, authority, -, -, hfeed, hadmin, -, hpm, hpr, -, -, -, -, hsupply, hmint, -,
    -, -, hmin, hmax, -, hg, hga, hinv, rfl⟩ := h
  refine ⟨args, g, _, _, ⟨_, husdc, rfl⟩, hv, hfeed, hadmin, hpm, hpr, hsupply, hmint, hmin, hmax,
    ?_, hg, hga, hinv⟩
  split_ifs with h0
  · decide
  · exact h0

/-- What every deployment has and every call and every outside step keeps, every reachable state
has. -/
theorem invariant_of_reachable {rt : Runtime} {I : World → Prop}
    (h₀ : ∀ {now w}, Initialized rt now w → I w)
    (hcall : ∀ {now signer ix w w'}, I w → Effect rt now signer w ix w' → I w')
    (hext : ∀ {w w'}, I w → External rt w w' → I w') {w : World} (h : Reachable rt w) :
    I w := by
  obtain ⟨now, w₀, es, hi, run⟩ := h
  apply run.invariant (h₀ hi)
  intro w e w' hw hs
  rcases step_cases hs with ⟨c, -, -, he⟩ | ⟨-, he⟩
  · exact hcall hw he
  · exact hext hw he

end DominionSilver
