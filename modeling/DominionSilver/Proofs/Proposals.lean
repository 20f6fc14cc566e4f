import DominionSilver.Proofs.Notice

/-! No doomed proposals. What a propose has accepted stays valid for as long as
the slot holds its nonce, because only an execute of that slot writes the fields
that its checks read. So its own execute passes every check again, a timelock
later, and writes what was proposed. -/

namespace DominionSilver

open Checked Bytes Tokens

namespace Change

/-- The config with the values that a change asks for; oracle, feed and compliance changes pause. -/
def written : Change → ConfigAccount → ConfigAccount
  | premiumMint newBps, c => { c with premiumBpsMint := newBps, mintPausedUntil := 0 }
  | premiumRedeem newBps, c => { c with premiumBpsRedeem := newBps }
  | treasuryFloat newFloatUsdc, c => { c with treasuryMinFloatUsdc := newFloatUsdc }
  | oracleGuards g, c => { c with
      maxStalenessSeconds := g.staleness.getD c.maxStalenessSeconds
      maxConfidenceBps := g.confBps.getD c.maxConfidenceBps
      minPriceUsdScaled := g.minPriceScaled.getD c.minPriceUsdScaled
      maxPriceUsdScaled := g.maxPriceScaled.getD c.maxPriceUsdScaled
      maxPriceDeltaBps := g.maxDeltaBps.getD c.maxPriceDeltaBps
      priceDeltaDecaySeconds := g.decaySeconds.getD c.priceDeltaDecaySeconds
      priceUpdateMinAmountUsdc := g.dustFilterMinUsdc.getD c.priceUpdateMinAmountUsdc
      minPublishers := g.minPublishers.getD c.minPublishers
      paused := true }
  | complianceMode newValue, c => { c with complianceMode := newValue, paused := true }
  | pythFeed newFeedId, c => { c with pythLazerFeedId := newFeedId, paused := true }
  | adminTimelock newSeconds, c => { c with adminTimelockSeconds := newSeconds }
  | redeemLimits args, c => args.writeTo c
  | publicMint newValue, c => { c with publicMintEnabled := newValue }
  | inventoryWallet newWallet, c => { c with inventoryWallet := newWallet }
  | withdrawUsdc _ _, c | metadata _, c => c

structure ValidGuards (g : OracleGuardsArgs) (c : ConfigAccount) : Prop where
  staleness : ∀ v, g.staleness = some v → StalenessInBounds v
  confBps : ∀ v, g.confBps = some v → ConfBpsInBounds v
  minPrice : ∀ v, g.minPriceScaled = some v → MinPriceInBounds v
  maxPrice : MaxPriceInBounds (g.maxPriceScaled.getD c.maxPriceUsdScaled)
  ordered : g.minPriceScaled.getD c.minPriceUsdScaled = 0 ∨
    g.minPriceScaled.getD c.minPriceUsdScaled < g.maxPriceScaled.getD c.maxPriceUsdScaled
  maxDelta : ∀ v, g.maxDeltaBps = some v → MaxDeltaBpsInBounds v
  decay : ∀ v, g.decaySeconds = some v → DecaySecondsInBounds v
  dust : ∀ v, g.dustFilterMinUsdc = some v → v ≤ 1000000000000
  publishers : ∀ v, g.minPublishers = some v → MIN_PUBLISHERS_FLOOR_HARD ≤ v

def Valid : Change → ConfigAccount → Prop
  | premiumMint newBps, _ => newBps ≤ PREMIUM_BPS_MINT_CEILING
  | premiumRedeem newBps, _ => newBps ≤ PREMIUM_BPS_REDEEM_CEILING
  | treasuryFloat newFloatUsdc, _ => newFloatUsdc ≤ TREASURY_FLOAT_CEILING_USDC
  | oracleGuards g, c => ValidGuards g c
  | metadata args, _ => validateMetadataArgs args = .ok ()
  | complianceMode newValue, c => newValue ≠ c.complianceMode
  | pythFeed newFeedId, _ => newFeedId ≠ 0
  | adminTimelock newSeconds, _ =>
      ADMIN_TIMELOCK_MIN_SECONDS ≤ newSeconds ∧ newSeconds ≤ ADMIN_TIMELOCK_MAX_SECONDS
  | redeemLimits args, _ => args.validateCeilings = .ok ()
  | publicMint newValue, c => newValue = true ∧ c.publicMintEnabled = false
  | inventoryWallet newWallet, c => newWallet ≠ Bytes32.zero ∧ newWallet ≠ c.inventoryWallet
  | withdrawUsdc _ _, _ => True

/-- The calls to the token program, which only new metadata makes, take the SILV mint to `m'`. -/
def Retitled (rt : Runtime) : Change → Mint Pubkey → Mint Pubkey → Prop
  | metadata args, m, m' => ∃ m₁ m₂, updateMetadataField rt .name args.name m = .ok m₁ ∧
      updateMetadataField rt .symbol args.symbol m₁ = .ok m₂ ∧
      updateMetadataField rt .uri args.uri m₂ = .ok m'
  | _, m, m' => m' = m

end Change

def asksRunning : TimelockAction → Bool
  | .setRedeemLimits | .setPublicMint | .setInventoryWallet => true
  | _ => false

section Checks

variable {change : Change} {c c' : ConfigAccount}

theorem checked_of_propose {check : ConfigAccount → Result Unit} {now : ℤ} {admin : Pubkey}
    {w w' : World} (h : propose change check now admin w = .ok w') : check w.config = .ok () := by
  obtain ⟨_, _, _, _, -, hc, -⟩ := propose_ok h
  exact hc

theorem valid_of_propose {now : ℤ} {admin : Pubkey} {w w' : World} (hb : Bounded w.config)
    (h : proposeHandler change now admin w = .ok w') : change.Valid w.config := by
  cases change with
  | premiumMint newBps =>
    simp only [proposeHandler, proposeSetPremiumMintHandler, bind_ok] at h
    obtain ⟨w₁, h, -⟩ := h
    have hc := checked_of_propose h
    simp only [bind_ok, require_ok, exists_unit] at hc
    exact hc.1
  | premiumRedeem newBps =>
    simp only [proposeHandler, proposeSetPremiumRedeemHandler] at h
    have hc := checked_of_propose h
    simp only [bind_ok, require_ok, exists_unit] at hc
    exact hc.1
  | withdrawUsdc amount recipient => trivial
  | treasuryFloat newFloatUsdc =>
    simp only [proposeHandler, proposeSetTreasuryMinFloatHandler] at h
    have hc := checked_of_propose h
    simp only [bind_ok, require_ok, exists_unit] at hc
    exact hc.1
  | oracleGuards g =>
    simp only [proposeHandler, proposeSetOracleGuardsHandler] at h
    have hc := checked_of_propose h
    simp only [bind_ok, require_ok, requireSome_ok, exists_unit] at hc
    obtain ⟨-, hstale, hconf, hdelta, hdecay, hdust, hpub, hmax, hmin, hord, -⟩ := hc
    have hold : MaxPriceInBounds w.config.maxPriceUsdScaled :=
      ⟨UInt64.pos_iff_ne_zero.1 hb.maxPriceUsdScaled.1, hb.maxPriceUsdScaled.2⟩
    exact ⟨hstale, hconf, hmin, getD_of (p := MaxPriceInBounds) hold hmax, hord, hdelta, hdecay,
      hdust, hpub⟩
  | metadata args =>
    simp only [proposeHandler, proposeUpdateMetadataHandler] at h
    have hc := checked_of_propose h
    exact hc
  | complianceMode newValue =>
    simp only [proposeHandler, proposeSetComplianceModeHandler] at h
    have hc := checked_of_propose h
    rw [require_ok] at hc
    exact hc
  | pythFeed newFeedId =>
    simp only [proposeHandler, proposeSetPythFeedHandler] at h
    have hc := checked_of_propose h
    simp only [bind_ok, require_ok, exists_unit] at hc
    exact hc.1
  | adminTimelock newSeconds =>
    simp only [proposeHandler, proposeSetAdminTimelockHandler] at h
    have hc := checked_of_propose h
    simp only [bind_ok, require_ok, exists_unit] at hc
    exact ⟨hc.1, hc.2.1⟩
  | redeemLimits args =>
    simp only [proposeHandler, proposeSetRedeemLimitsHandler] at h
    have hc := checked_of_propose h
    simp only [bind_ok, require_ok, exists_unit] at hc
    exact hc.2.1
  | publicMint newValue =>
    simp only [proposeHandler, proposeSetPublicMintHandler] at h
    have hc := checked_of_propose h
    simp only [bind_ok, require_ok, exists_unit] at hc
    obtain ⟨rfl, hne⟩ := hc
    exact ⟨rfl, Bool.eq_false_iff.2 fun ht => hne ht.symm⟩
  | inventoryWallet newWallet =>
    simp only [proposeHandler, proposeSetInventoryWalletHandler] at h
    have hc := checked_of_propose h
    simp only [bind_ok, require_ok, exists_unit] at hc
    exact hc

theorem Change.Valid.congr (h : change.Valid c) (hs : SameFields change.kind c c')
    (hp : change.kind = .setPublicMint → c'.publicMintEnabled = false) : change.Valid c' := by
  cases change with
  | oracleGuards g =>
    obtain ⟨-, -, hmin, hmax, -⟩ := hs
    exact { h with maxPrice := by rw [hmax]; exact h.maxPrice
                   ordered := by rw [hmin, hmax]; exact h.ordered }
  | complianceMode newValue => exact fun he => h (he.trans hs)
  | publicMint newValue => exact ⟨h.1, hp rfl⟩
  | inventoryWallet newWallet => exact ⟨h.1, fun he => h.2 (he.trans hs)⟩
  | _ => exact h

theorem effect_of_valid {rt : Runtime} {ata : Pubkey} {data : List UInt8} {w : World}
    {m : Mint Pubkey} (hb : Bounded w.config) (hv : change.Valid w.config)
    (hk : change.kind ≠ .withdrawUsdc) (he : change.encode = .ok data)
    (hp : asksRunning change.kind = true → w.config.paused = false)
    (hm : change.Retitled rt w.silvMint m) :
    effectOf rt ata change.kind data w =
      .ok { w with config := change.written w.config, silvMint := m } := by
  cases change with
  | premiumMint newBps =>
    obtain rfl := Except.ok.inj he
    obtain rfl := hm
    simp only [Change.kind, effectOf, premiumMintEffect, ConfigAccount.assertPremiumWithinBounds,
      bind_ok, decodeWord_ok, fromLEBytes_self, require_ok, exists_unit, pure_ok]
    exact ⟨newBps, rfl, hv, Nat.zero_le _, ⟨hv, hb.premiumBpsRedeem, Nat.zero_le _⟩, rfl⟩
  | premiumRedeem newBps =>
    obtain rfl := Except.ok.inj he
    obtain rfl := hm
    simp only [Change.kind, effectOf, premiumRedeemEffect, ConfigAccount.assertPremiumWithinBounds,
      bind_ok, decodeWord_ok, fromLEBytes_self, require_ok, exists_unit, pure_ok]
    exact ⟨newBps, rfl, hv, Nat.zero_le _, ⟨hb.premiumBpsMint, hv, Nat.zero_le _⟩, rfl⟩
  | withdrawUsdc amount recipient => exact absurd rfl hk
  | treasuryFloat newFloatUsdc =>
    obtain rfl := Except.ok.inj he
    obtain rfl := hm
    simp only [Change.kind, effectOf, treasuryMinFloatEffect, bind_ok, decodeWord_ok,
      fromLEBytes_self, require_ok, exists_unit, pure_ok]
    exact ⟨newFloatUsdc, rfl, hv, rfl⟩
  | oracleGuards g =>
    obtain rfl := hm
    simp only [Change.kind, effectOf, oracleGuardsEffect, bind_ok, decodeArgs_ok,
      Codec.tryFromSlice_ser (serializeArgs_ok.1 he).1, require_ok, requireSome_ok, exists_unit,
      pure_ok]
    exact ⟨g, rfl, hv.staleness, hv.confBps, hv.minPrice, hv.maxPrice, hv.ordered, hv.maxDelta,
      hv.decay, hv.dust, hv.publishers, rfl⟩
  | metadata args =>
    obtain ⟨m₁, m₂, h1, h2, h3⟩ := hm
    simp only [Change.kind, effectOf, metadataEffect, bind_ok, decodeArgs_ok,
      Codec.tryFromSlice_ser (serializeArgs_ok.1 he).1, exists_unit, pure_ok]
    exact ⟨args, rfl, hv, m₁, h1, m₂, h2, m, h3, rfl⟩
  | complianceMode newValue =>
    obtain rfl := Except.ok.inj he
    obtain rfl := hm
    have hd : decide (([if newValue then 1 else 0] : List UInt8).headD 0 ≠ 0) = newValue := by
      cases newValue <;> rfl
    simp only [Change.kind, effectOf, complianceModeEffect, hd, bind_ok, require_ok, exists_unit,
      pure_ok]
    exact ⟨hv, rfl⟩
  | pythFeed newFeedId =>
    obtain rfl := Except.ok.inj he
    obtain rfl := hm
    simp only [Change.kind, effectOf, pythFeedEffect, bind_ok, decodeWord_ok, fromLEBytes_self,
      require_ok, exists_unit, pure_ok]
    exact ⟨newFeedId, rfl, hv, rfl⟩
  | adminTimelock newSeconds =>
    obtain rfl := Except.ok.inj he
    obtain rfl := hm
    simp only [Change.kind, effectOf, adminTimelockEffect, bind_ok, decodeWord_ok,
      fromLEBytes_self, require_ok, exists_unit, pure_ok]
    exact ⟨newSeconds, rfl, hv.1, hv.2, rfl⟩
  | redeemLimits args =>
    obtain rfl := hm
    simp only [Change.kind, effectOf, redeemLimitsEffect, bind_ok, decodeArgs_ok,
      Codec.tryFromSlice_ser (serializeArgs_ok.1 he).1, require_ok, exists_unit, pure_ok]
    exact ⟨hp rfl, args, rfl, hv, rfl⟩
  | publicMint newValue =>
    obtain rfl := Except.ok.inj he
    obtain rfl := hm
    obtain ⟨rfl, hclosed⟩ := hv
    simp only [Change.kind, effectOf, publicMintEffect, bind_ok, require_ok, exists_unit,
      pure_ok]
    exact ⟨hp rfl, List.cons_ne_nil _ _, rfl, by rw [hclosed]; decide, rfl⟩
  | inventoryWallet newWallet =>
    obtain rfl := Except.ok.inj he
    obtain rfl := hm
    simp only [Change.kind, effectOf, inventoryWalletEffect, bind_ok, okOr_ok,
      Bytes32.ofBytes?_bytes, require_ok, exists_unit, pure_ok]
    exact ⟨hp rfl, newWallet, rfl, hv.1, hv.2, rfl⟩

end Checks

def Touches (n : UInt64) (r : Entry) : Prop :=
  (∃ k, Executes k n r) ∨ Cancels n r ∨ Disarms n r

/-- The account with nonce `n` and its slot are as the propose of `change` left them, and `change`
is still valid. -/
structure Armed (n : UInt64) (change : Change) (due : ℤ) (payer : Pubkey) (w : World) : Prop where
  slot : w.config.pendingNonce change.kind = some n
  stored : ∃ data, change.encode = .ok data ∧ ∃ scheduledAt, w.timelocks.lookup n =
    some ⟨n, change.kind.disc, data, scheduledAt, due, none, false, payer, payer⟩
  valid : change.Valid w.config

section Steps

variable {rt : Runtime} {w w' : World} {e : Event} {n : UInt64} {change : Change} {due : ℤ}
  {payer : Pubkey}

theorem slot_of_cancel {slot : TimelockAction → Option UInt64} {k : TimelockAction}
    {o : Option TimelockAction} {m : UInt64} (hm : m ≠ n) (hk : slot k = some n) :
    (match o with
      | some j => if slot j = some m then Function.update slot j none else slot
      | none => slot) k = some n := by
  cases o with
  | none => exact hk
  | some j =>
    simp only
    split_ifs with hj
    · rw [Function.update_of_ne, hk]
      rintro rfl
      exact hm (Option.some.inj (hj.symm.trans hk))
    · exact hk

theorem kept_of_untouched {k : TimelockAction} {tl : TimelockQueueAccount} (hq : QueueSound w)
    (hk : w.config.pendingNonce k = some n) (hl : w.timelocks.lookup n = some tl)
    (h : Step rt w e w') (ht : ¬ Touches n ⟨w, e, w'⟩) :
    w'.config.pendingNonce k = some n ∧ w'.timelocks.lookup n = some tl := by
  rcases step_cases h with ⟨⟨now, hnow, signer, ix⟩, rfl, -, he⟩ | ⟨-, he⟩
  · -- an instant close of the slot would touch `n`
    have hclose : ∀ j, instantClose ix = some j → k ≠ j := by
      rintro j hj rfl
      exact ht (.inr (.inr ⟨_, k, rfl, hj, hk⟩))
    cases he with
    | propose queued =>
      obtain ⟨-, -, -, -, hlt⟩ := hq.queued n tl hl
      refine ⟨?_, ?_⟩
      · have hne : k ≠ _ := fun e => by rw [e, queued.free] at hk; cases hk
        exact (Function.update_of_ne hne _ _).trans hk
      · exact (Finmap.lookup_insert_of_ne _ (UInt64.ne_of_lt hlt)).trans hl
    | @execute j m _ _ _ _ w₁ timelock _ _ applied =>
      obtain ⟨htl, hp, -, -⟩ := queue_of_applied applied
      have hm : n ≠ m := by
        rintro rfl
        exact ht (.inl ⟨j, _, _, _, rfl, rfl⟩)
      have hj : k ≠ j := by
        rintro rfl
        exact hm (Option.some.inj (hk.symm.trans timelock.armed))
      simp only [closeTimelock, htl, hp]
      exact ⟨(Function.update_of_ne hj _ _).trans hk, (Finmap.lookup_erase_ne hm).trans hl⟩
    | @cancelTimelockedAction m _ _ _ _ _ _ _ _ _ _ _ slots =>
      have hm : n ≠ m := by
        rintro rfl
        exact ht (.inr (.inl ⟨_, _, _, rfl, rfl⟩))
      subst slots
      exact ⟨slot_of_cancel hm.symm hk, (Finmap.lookup_erase_ne hm).trans hl⟩
    | setPublicMintEnabled =>
      exact ⟨(Function.update_of_ne (hclose _ rfl) _ _).trans hk, hl⟩
    | setRedemptionsEnabled =>
      exact ⟨(Function.update_of_ne (hclose _ rfl) _ _).trans hk, hl⟩
    | emergencyTightenRedeemLimits _ _ _ _ _ slots =>
      refine ⟨?_, hl⟩
      subst slots
      simp only
      split_ifs with hs
      · exact (Function.update_of_ne (hclose _ (if_pos hs)) _ _).trans hk
      · exact hk
    | _ => exact ⟨hk, hl⟩
  · exact ⟨by rw [he.config]; exact hk, by rw [he.timelocks]; exact hl⟩

theorem sameFields_of_untouched {k : TimelockAction} (hk : w.config.pendingNonce k = some n)
    (h : Step rt w e w') (ht : ¬ Touches n ⟨w, e, w'⟩) : SameFields k w.config w'.config := by
  rcases step_cases h with ⟨c, rfl, -, he⟩ | ⟨-, he⟩
  · apply sameFields_of_effect he
    rintro m rent ata hix
    rw [hix] at he
    cases he with
    | execute timelock =>
      obtain rfl := Option.some.inj (hk.symm.trans timelock.armed)
      exact ht (.inl ⟨k, c, rent, ata, rfl, hix⟩)
  · rw [he.config]
    cases k <;> first
      | exact trivial
      | rfl
      | exact ⟨rfl, rfl, rfl, rfl, rfl, rfl, rfl, rfl⟩

theorem Armed.step (hw : Armed n change due payer w) (hq : QueueSound w) (h : Step rt w e w')
    (ht : ¬ Touches n ⟨w, e, w'⟩) : Armed n change due payer w' := by
  obtain ⟨data, hd, at', hl⟩ := hw.stored
  obtain ⟨hslot, hlookup⟩ := kept_of_untouched hq hw.slot hl h ht
  refine ⟨hslot, ⟨data, hd, at', hlookup⟩, ?_⟩
  refine hw.valid.congr (sameFields_of_untouched hw.slot h ht) fun hk => ?_
  apply (hq.step h).closed
  rw [← hk, hslot]
  exact Option.some_ne_none n

theorem armed_of_propose {c : Call} (hb : Bounded w.config) (h : exec rt c w = .ok w')
    (hix : c.ix = .propose change) (hk : change.kind ≠ .withdrawUsdc) :
    Armed w.config.nextTimelockNonce change
      (c.now + w.config.adminTimelockSeconds.toNat) c.signer w' := by
  have he := effect_of_call h hix
  simp only [exec, hix, dispatch, bind_ok, exists_unit] at h
  have hv := valid_of_propose hb h.2
  cases he with
  | @propose _ data eta next count _ queued repricing closed =>
    refine ⟨Function.update_self _ _ _, ⟨data, queued.encode, c.now, ?_⟩, ?_⟩
    · simp only [Finmap.lookup_insert, queuedAccount, queued.executableAt]
    · cases change with
      | withdrawUsdc => exact absurd rfl hk
      | oracleGuards g => exact { hv with }
      | _ => exact hv

theorem exec_of_armed {p : Call} {ata : Pubkey} {m : Mint Pubkey}
    (ha : Armed n change due payer w) (hb : Bounded w.config) (hk : change.kind ≠ .withdrawUsdc)
    (hix : p.ix = .execute change.kind n payer ata) (hadmin : w.config.admin = p.signer)
    (hsign : rt.canSign p.signer = true) (hdue : due ≤ p.now)
    (hrun : asksRunning change.kind = true → w.config.paused = false)
    (hm : change.Retitled rt w.silvMint m) :
    exec rt p w = .ok (closeTimelock change.kind n
      { w with config := change.written w.config, silvMint := m }) := by
  obtain ⟨data, hd, at', hl⟩ := ha.stored
  simp only [exec, hix, dispatch, executeHandler_eq, execute, openTimelock, bind_ok, constrain_ok,
    requireAdmin_ok, existing_ok, require_ok, exists_unit, pure_ok]
  exact ⟨hsign, _, ⟨hadmin, _, hl, rfl, rfl, rfl, rfl, rfl, ha.slot, hdue, rfl⟩, _,
    effect_of_valid hb ha.valid hk hd hrun hm, rfl⟩

end Steps

theorem armed_of_run {rt : Runtime} {now₀ : ℤ} {w₀ w : World} {before after : List Entry}
    {r : Entry} {c : Call} {change : Change} (h₀ : Initialized rt now₀ w₀)
    (run : Run rt w₀ (before ++ r :: after) w) (hc : r.event = .call c)
    (hix : c.ix = .propose change) (hk : change.kind ≠ .withdrawUsdc)
    (hafter : ∀ x ∈ after, ¬ Touches r.pre.config.nextTimelockNonce x) :
    Armed r.pre.config.nextTimelockNonce change
      (c.now + r.pre.config.adminTimelockSeconds.toNat) c.signer w := by
  obtain ⟨hrun, hstep, hrest⟩ := run.split
  rw [hc] at hstep
  have hqueue : QueueSound r.pre := hrun.invariant (queueSound_initial h₀) QueueSound.step
  have hb := bounded_of_reachable ⟨now₀, w₀, before, h₀, hrun⟩
  have hkept := hrest.kept (B := fun w => QueueSound w ∧ Armed r.pre.config.nextTimelockNonce change
      (c.now + r.pre.config.adminTimelockSeconds.toNat) c.signer w)
    ⟨hqueue.step hstep, armed_of_propose hb hstep hix hk⟩
    (fun hw hs ht => ⟨hw.1.step hs, hw.2.step hw.1 hs ht⟩) hafter
  exact hkept.2

/-- From `w`, the account `n` holds `change`, and every execute that its admin signs once it is due
succeeds and writes it; metadata as far as the token program takes it. -/
structure Executable (rt : Runtime) (n : UInt64) (change : Change) (due : ℤ) (payer : Pubkey)
    (w : World) : Prop where
  decoded : ∃ tl, w.timelocks.lookup n = some tl ∧ tl.executableAt = due ∧
    decodeChange change.kind tl.actionData = some change
  succeeds : ∀ (p : Call) ata m, p.ix = .execute change.kind n payer ata →
    w.config.admin = p.signer → rt.canSign p.signer = true → due ≤ p.now →
    (asksRunning change.kind = true → w.config.paused = false) →
    change.Retitled rt w.silvMint m →
    exec rt p w = .ok (closeTimelock change.kind n
      { w with config := change.written w.config, silvMint := m })

/-- Whatever happens after an accepted propose, unless it is a cancel, a disarming or the execute
itself, leaves it executable from its due time on. -/
theorem no_doomed_proposals {rt : Runtime} {now₀ : ℤ} {w₀ w : World} {es : List Entry}
    (h₀ : Initialized rt now₀ w₀) (run : Run rt w₀ es w) :
    ∀ before r after, es = before ++ r :: after → ∀ c change, r.event = .call c →
      c.ix = .propose change → change.kind ≠ .withdrawUsdc →
      (∀ x ∈ after, ¬ Touches r.pre.config.nextTimelockNonce x) →
      Executable rt r.pre.config.nextTimelockNonce change
        (c.now + r.pre.config.adminTimelockSeconds.toNat) c.signer w := by
  rintro before r after rfl c change hc hix hk hafter
  have ha := armed_of_run h₀ run hc hix hk hafter
  have hb : Bounded w.config := bounded_of_reachable ⟨now₀, w₀, _, h₀, run⟩
  obtain ⟨data, hd, at', hl⟩ := ha.stored
  refine ⟨⟨_, hl, rfl, decodeChange_encode hd⟩, ?_⟩
  intro p ata m hpix hadmin hsign hdue hpaused hm
  exact exec_of_armed ha hb hk hpix hadmin hsign hdue hpaused hm

theorem no_doomed_proposals_queueCalls :
    ∃ w', exec Reference.runtime Reference.executeFloat
      (Reference.final Reference.runtime Reference.start (queueCalls.take 2)) = .ok w' :=
  ⟨_, (no_doomed_proposals Reference.initialized_start
    (@Reference.run_of_succeeds _ _ (queueCalls.take 2) (by decide +kernel)) [] _ _ rfl
      Reference.proposeFloat (.treasuryFloat 7) rfl rfl (by decide) (by
        intro x hx ht
        have hq := Reference.forall_entries (p := fun c => c.ix = .propose (.pythFeed 346))
          (by simp [Reference.callAt]) x hx
        rcases ht with ⟨k, c, _, _, hc, hix⟩ | ⟨c, _, _, hc, hix⟩ | ⟨c, k, hc, hclose, -⟩
        · rw [hq c hc] at hix; cases hix
        · rw [hq c hc] at hix; cases hix
        · rw [hq c hc] at hclose; cases hclose)).succeeds Reference.executeFloat Reference.admin _
          rfl rfl rfl (by decide +kernel) (fun h => absurd h (by decide)) rfl⟩

end DominionSilver
