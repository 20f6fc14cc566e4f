import DominionSilver.Proofs.Proposals
import DominionSilver.Sanity.Errors

/-! The window around a new mint premium. The time field and the slot that
together hold mints back move together, so a mint is held back exactly while a
new premium is queued, and nobody mints between its announcement and its
execution. -/

namespace DominionSilver

open Checked Bytes Tokens

/-- The mint pause is the due time of the queued premium, and zero where none is queued. -/
structure FrontRunWindow (w : World) : Prop where
  armed : ∀ n, w.config.pendingNonce .setPremiumMint = some n → ∃ tl,
    w.timelocks.lookup n = some tl ∧ tl.actionDisc = TimelockAction.setPremiumMint.disc ∧
      w.config.mintPausedUntil = tl.executableAt
  idle : w.config.pendingNonce .setPremiumMint = none → w.config.mintPausedUntil = 0

section Window

variable {rt : Runtime} {w w' : World} {e : Event} {now : ℤ} {signer : Pubkey}

theorem frontRunWindow_initial (h : Initialized rt now w) : FrontRunWindow w := by
  obtain ⟨args, g, t, m, d⟩ := deployed_of_initialized h
  obtain ⟨usdc, -, rfl⟩ := d.state
  exact ⟨nofun, fun _ => rfl⟩

theorem FrontRunWindow.congr (hw : FrontRunWindow w)
    (hs : w'.config.pendingNonce .setPremiumMint = w.config.pendingNonce .setPremiumMint)
    (hp : w'.config.mintPausedUntil = w.config.mintPausedUntil)
    (hl : ∀ n tl, w.config.pendingNonce .setPremiumMint = some n →
      w.timelocks.lookup n = some tl → tl.actionDisc = TimelockAction.setPremiumMint.disc →
      w'.timelocks.lookup n = some tl) : FrontRunWindow w' := by
  constructor
  · intro n hn
    rw [hs] at hn
    obtain ⟨tl, htl, hd, he⟩ := hw.armed n hn
    exact ⟨tl, hl n tl hn htl hd, hd, hp.trans he⟩
  · intro hn
    rw [hs] at hn
    rw [hp, hw.idle hn]

theorem mintPausedUntil_of_applied {ata : Pubkey} {change : Change} (h : Applied rt ata w change w')
    (hk : change.kind ≠ .setPremiumMint) :
    w'.config.mintPausedUntil = w.config.mintPausedUntil := by
  cases h with
  | premiumMint => exact absurd rfl hk
  | _ => rfl

theorem FrontRunWindow.propose {change : Change} (hw : FrontRunWindow w) (hq : QueueSound w)
    (h : Effect rt now signer w (.propose change) w') : FrontRunWindow w' := by
  cases h with
  | propose queued repricing =>
    by_cases hk : change.kind = .setPremiumMint
    · -- the propose that opens the window
      rw [if_pos hk] at repricing
      constructor
      · intro n hn
        simp only [hk, Function.update_self, Option.some.injEq] at hn
        subst hn
        refine ⟨_, Finmap.lookup_insert _, ?_, repricing⟩
        rw [queuedAccount, hk]
      · intro hn
        simp only [hk, Function.update_self] at hn
        cases hn
    · rw [if_neg hk] at repricing
      refine hw.congr (Function.update_of_ne (Ne.symm hk) _ _) repricing ?_
      intro n tl _ htl _
      obtain ⟨-, -, -, -, hlt⟩ := hq.queued n tl htl
      exact (Finmap.lookup_insert_of_ne _ (UInt64.ne_of_lt hlt)).trans htl

theorem FrontRunWindow.execute {k : TimelockAction} {m : UInt64} {rent ata : Pubkey}
    (hw : FrontRunWindow w) (h : Effect rt now signer w (.execute k m rent ata) w') :
    FrontRunWindow w' := by
  cases h with
  | execute timelock _ kind applied =>
    obtain ⟨htl, hp, -, -⟩ := queue_of_applied applied
    by_cases hk : k = .setPremiumMint
    · -- the execute that closes it
      subst hk
      constructor
      · intro n hn
        simp only [closeTimelock, Function.update_self] at hn
        cases hn
      · intro _
        cases applied with
        | premiumMint => rfl
        | _ => cases kind
    · have hpaused := mintPausedUntil_of_applied applied (kind ▸ hk)
      refine hw.congr ?_ hpaused ?_
      · simp only [closeTimelock, hp]
        exact Function.update_of_ne (Ne.symm hk) _ _
      · intro n tl _ hl hd
        have hne : n ≠ m := by
          rintro rfl
          obtain rfl := Option.some.inj (hl.symm.trans timelock.found)
          exact hk (TimelockAction.disc_injective (timelock.disc.symm.trans hd))
        simp only [closeTimelock, htl]
        exact (Finmap.lookup_erase_ne hne).trans hl

theorem FrontRunWindow.cancel {m : UInt64} {supplies : Bool} {rent : Pubkey}
    (hw : FrontRunWindow w)
    (h : Effect rt now signer w (.cancelTimelockedAction m supplies rent) w') :
    FrontRunWindow w' := by
  cases h with
  | @cancelTimelockedAction _ _ _ tl _ _ found _ _ _ _ _ slots resumed =>
    by_cases hc : tl.actionDisc = TimelockAction.setPremiumMint.disc ∧
        w.config.pendingNonce .setPremiumMint = some m
    · -- the cancel that closes it
      rw [hc.1, TimelockAction.ofDisc?_disc] at slots
      simp only [hc.2, if_true] at slots
      rw [if_pos hc] at resumed
      subst slots
      constructor
      · intro n hn
        simp only [Function.update_self] at hn
        cases hn
      · exact fun _ => resumed
    · rw [if_neg hc] at resumed
      refine hw.congr ?_ resumed ?_
      · subst slots
        simp only
        split
        · rename_i k hk
          split_ifs with hm
          · refine Function.update_of_ne ?_ _ _
            rintro rfl
            exact hc ⟨TimelockAction.ofDisc?_eq_some.1 hk, hm⟩
          · rfl
        · rfl
      · intro n tl' hn hl hd
        have hne : n ≠ m := by
          rintro rfl
          obtain rfl := Option.some.inj (hl.symm.trans found)
          exact hc ⟨hd, hn⟩
        exact (Finmap.lookup_erase_ne hne).trans hl

theorem FrontRunWindow.step (hw : FrontRunWindow w) (hq : QueueSound w) (h : Step rt w e w') :
    FrontRunWindow w' := by
  rcases step_cases h with ⟨⟨now, hnow, signer, ix⟩, rfl, -, he⟩ | ⟨-, he⟩
  · have heffect := he
    cases he with
    | propose => exact hw.propose hq heffect
    | execute => exact hw.execute heffect
    | cancelTimelockedAction => exact hw.cancel heffect
    | setPublicMintEnabled =>
      refine hw.congr ?_ rfl fun _ _ _ hl _ => hl
      simp only
      exact Function.update_of_ne (by decide) _ _
    | setRedemptionsEnabled =>
      refine hw.congr ?_ rfl fun _ _ _ hl _ => hl
      simp only
      exact Function.update_of_ne (by decide) _ _
    | emergencyTightenRedeemLimits _ _ _ _ _ slots =>
      refine hw.congr ?_ rfl fun _ _ _ hl _ => hl
      subst slots
      simp only
      split_ifs
      · exact Function.update_of_ne (by decide) _ _
      · rfl
    | _ => exact hw.congr rfl rfl fun _ _ _ hl _ => hl
  · exact hw.congr (by rw [he.config]) (by rw [he.config]) fun _ _ _ hl _ => he.timelocks ▸ hl

end Window

section Errors

/-- The error that holds a mint back. -/
abbrev mintPaused : Error := .dominion .mintPaused

variable {rt : Runtime}

theorem readSilverPriceLazer_error (a : LazerAccounts) (c : ConfigAccount) (now : ℤ) :
    readSilverPriceLazer rt a c now ≠ .error mintPaused := by
  intro h
  simp only [readSilverPriceLazer, bind_error, mapErr_error] at h
  rcases h with h | ⟨_, -, ⟨d, -, h⟩ | ⟨_, -, d, -, h⟩⟩
  · exact verifyAndGetPayload_ne (by decide) a h
  · cases d <;> simp [mapParseErr] at h
  · cases d <;> simp [mapPolicyErr] at h

theorem checkPriceDelta_error (c : ConfigAccount) (price : ℕ) (now : ℤ) :
    checkPriceDelta c price now ≠ .error mintPaused := by
  unfold checkPriceDelta
  split_ifs <;> simp [bind_error]

theorem feeFromAmount_error (amount : UInt64) (bps : UInt16) :
    feeFromAmount amount bps ≠ .error mintPaused := by
  unfold feeFromAmount
  split_ifs <;> simp [bind_error]

theorem quoteMint_error (c : ConfigAccount) (bps : UInt16) (price : ℕ)
    (supply amount least : UInt64) : quoteMint c bps price supply amount least ≠
      .error mintPaused := by
  intro h
  simp [quoteMint, mintSilvOut, bind_error, feeFromAmount_error, pure, Except.pure] at h

end Errors

/-- Every check of a mint by `user` up to and with the public-mint check passes. -/
structure Admitted (rt : Runtime) (accounts : PricedAccounts) (user : Pubkey) (w : World) :
    Prop where
  signs : rt.canSign user = true
  treasury : (existing (w.usdc.lookup w.config.usdcTreasury)).isOk = true
  feeVault : (associated rt w.usdc rt.feeVaultPda w.config.usdcMint).isOk = true
  source : (associated rt w.usdc user w.config.usdcMint).isOk = true
  dest : (initAssociated rt w.silv user w.config.silvMint).isOk = true
  feeExempt : (optionalAccount accounts.suppliesFeeExempt (w.feeExempts.lookup user)).isOk = true
  kyc : (optionalAccount accounts.suppliesKyc (w.kycs.lookup user)).isOk = true
  unpaused : w.config.paused = false
  opened : w.config.publicMintEnabled = true

section Mints

variable {rt : Runtime} {w : World} {c : Call} {amountUsdc minSilvOut : UInt64}
  {accounts : PricedAccounts}

theorem ok_of_isOk {α : Type} {r : Result α} (h : r.isOk = true) : ∃ a, r = .ok a := by
  cases r with
  | ok a => exact ⟨a, rfl⟩
  | error e => cases h

/-- Past the pause, a mint meets `MintPaused` for the time or for the slot, and nowhere else. -/
theorem mint_error_iff (ha : Admitted rt accounts c.signer w)
    (hix : c.ix = .mintSilv amountUsdc minSilvOut accounts) :
    exec rt c w = .error mintPaused ↔
      c.now < w.config.mintPausedUntil ∨ w.config.pendingNonce .setPremiumMint ≠ none := by
  obtain ⟨_, h1⟩ := ok_of_isOk ha.treasury
  obtain ⟨_, h2⟩ := ok_of_isOk ha.feeVault
  obtain ⟨_, h3⟩ := ok_of_isOk ha.source
  obtain ⟨_, h4⟩ := ok_of_isOk ha.dest
  obtain ⟨_, h5⟩ := ok_of_isOk ha.feeExempt
  obtain ⟨_, h6⟩ := ok_of_isOk ha.kyc
  simp only [exec, hix, dispatch, mintSilvHandler, constrain, bind_error, guardOr_error, guardOr_ok,
    ha.signs, not_true_eq_false, false_or, true_and, exists_unit, h1, h2, h3, h4, h5, h6,
    reduceCtorEq, Except.ok.injEq, exists_eq_left', require_error, require_ok, ha.unpaused,
    ha.opened, enforceKyc_ne (d := .mintPaused) (by decide), readSilverPriceLazer_error,
    checkPriceDelta_error, assertSilvMintInvariants_ne (d := .mintPaused) (by decide),
    quoteMint_error, transferIfPositive_ne, cpi_ne, pure, Except.pure, mintPaused,
    Error.dominion.injEq, and_false, or_false, exists_false, and_true]
  rw [← not_le]
  tauto

end Mints

/-- The step is an accepted mint. -/
def Mints (r : Entry) : Prop :=
  ∃ c amountUsdc minSilvOut accounts, r.event = .call c ∧
    c.ix = .mintSilv amountUsdc minSilvOut accounts

/-- The step announces the mint premium `newBps` under nonce `n`. -/
def Announces (n : UInt64) (newBps : UInt16) (r : Entry) : Prop :=
  ∃ c, r.event = .call c ∧ c.ix = .propose (.premiumMint newBps) ∧
    r.pre.config.nextTimelockNonce = n

theorem not_mints_of_armed {rt : Runtime} {w w' : World} {e : Event} {n : UInt64}
    (hn : w.config.pendingNonce .setPremiumMint = some n) (h : Step rt w e w') :
    ¬ Mints ⟨w, e, w'⟩ := by
  rintro ⟨c, amountUsdc, minSilvOut, accounts, rfl, hix⟩
  have he := effect_of_call h hix
  cases he with
  | mintSilv minted =>
    have hnone := minted.noRepricing
    rw [hn] at hnone
    cases hnone

theorem premiumBpsMint_of_applied {rt : Runtime} {ata : Pubkey} {w w₁ : World} {newBps : UInt16}
    (h : Applied rt ata w (.premiumMint newBps) w₁) : w₁.config.premiumBpsMint = newBps := by
  cases h with
  | premiumMint => rfl

/-- The mint premium changes when a new one is executed that was announced before, with no mint
since. -/
theorem announced_of_repricing {rt : Runtime} {now₀ : ℤ} {w₀ : World} {before : List Entry}
    {r : Entry} (h₀ : Initialized rt now₀ w₀) (run : Run rt w₀ before r.pre)
    (hstep : Step rt r.pre r.event r.post)
    (hne : r.post.config.premiumBpsMint ≠ r.pre.config.premiumBpsMint) :
    ∃ n, Executes .setPremiumMint n r ∧
      Trace.Since (Announces n r.post.config.premiumBpsMint) Mints before := by
  obtain ⟨pre, event, post⟩ := r
  rcases step_cases hstep with ⟨c, rfl, -, he⟩ | ⟨-, he⟩
  · have hx : ∃ n rent ata, c.ix = .execute .setPremiumMint n rent ata := by
      by_contra hx
      exact hne (sameFields_of_effect (k := .setPremiumMint) he
        fun n rent ata hix => hx ⟨n, rent, ata, hix⟩)
    obtain ⟨n, rent, ata, hix⟩ := hx
    refine ⟨n, ⟨c, rent, ata, rfl, hix⟩, ?_⟩
    obtain ⟨change, w₁, hk, applied, hpost, ⟨as, q, bs, hbefore, ⟨p, hp, hpix, hn, -⟩, -⟩, hopen⟩ :=
      notified_of_execute h₀ run hstep hix
    obtain ⟨newBps, rfl⟩ := exists_premiumMint hk
    have hbps : post.config.premiumBpsMint = newBps :=
      (congrArg (·.config.premiumBpsMint) hpost).trans (premiumBpsMint_of_applied applied)
    subst hbefore
    refine ⟨as, q, bs, rfl, ⟨p, hp, hbps ▸ hpix, hn⟩, ?_⟩
    intro x hx
    -- the slot holds `n` from its propose to its execute
    obtain ⟨cs, ds, rfl⟩ := List.append_of_mem hx
    rw [← List.cons_append, ← List.append_assoc] at run
    obtain ⟨hcs, hstepx, -⟩ := run.split
    have harmed := armed_of_run h₀ hcs hp hpix (by simp [Change.kind]) (by
      rw [hn]
      rintro y hy (⟨k, hy'⟩ | hy' | hy')
      · exact (hopen y (by simp [hy])).1 k hy'
      · exact (hopen y (by simp [hy])).2.1 hy'
      · exact (hopen y (by simp [hy])).2.2 hy')
    rw [hn] at harmed
    exact not_mints_of_armed harmed.slot hstepx
  · exact absurd (by rw [he.config]) hne

/-- In every reachable state the pause of mints is that of the queued premium, so that a mint past
the other checks is held back exactly while a premium is queued; and over the run the premium only
changes after an announcement that no mint has followed. -/
theorem front_run_window {rt : Runtime} {now₀ : ℤ} {w₀ w : World} {es : List Entry}
    (h₀ : Initialized rt now₀ w₀) (run : Run rt w₀ es w) :
    FrontRunWindow w ∧
    (∀ c amountUsdc minSilvOut accounts, c.ix = .mintSilv amountUsdc minSilvOut accounts →
      0 ≤ c.now → Admitted rt accounts c.signer w →
      (exec rt c w = .error mintPaused ↔ w.config.pendingNonce .setPremiumMint ≠ none)) ∧
    ∀ before r after, es = before ++ r :: after →
      r.post.config.premiumBpsMint ≠ r.pre.config.premiumBpsMint →
      ∃ n, Executes .setPremiumMint n r ∧
        Trace.Since (Announces n r.post.config.premiumBpsMint) Mints before := by
  have hw : QueueSound w ∧ FrontRunWindow w :=
    run.invariant (I := fun w => QueueSound w ∧ FrontRunWindow w)
      ⟨queueSound_initial h₀, frontRunWindow_initial h₀⟩
      fun hw hs => ⟨hw.1.step hs, hw.2.step hw.1 hs⟩
  refine ⟨hw.2, ?_, ?_⟩
  · intro c amountUsdc minSilvOut accounts hix hnow ha
    rw [mint_error_iff ha hix]
    constructor
    · rintro (hlt | hslot)
      · intro hnone
        rw [hw.2.idle hnone] at hlt
        omega
      · exact hslot
    · exact .inr
  · rintro before r after rfl hne
    obtain ⟨hrun, hstep, -⟩ := run.split
    exact announced_of_repricing h₀ hrun hstep hne

def repricingCalls : List Call :=
  [Reference.unpauseCall, Reference.callAt 2500 Reference.admin (.propose (.premiumMint 50)),
    Reference.callAt 90000 Reference.admin
      (.execute .setPremiumMint 0 Reference.admin Reference.admin)]

/-- A mint meets the pause once the premium is queued, also when its delay is over. -/
theorem front_run_window_repricingCalls :
    exec Reference.runtime (Reference.callAt 90000 Reference.user
        (.mintSilv 100000000 0 (Reference.pricedAt 2999000000)))
      (Reference.final Reference.runtime Reference.start (repricingCalls.take 2)) =
        .error mintPaused :=
  ((front_run_window Reference.initialized_start
    (@Reference.run_of_succeeds _ _ (repricingCalls.take 2) (by decide +kernel))).2.1 _ _ _ _ rfl
      (by decide) ⟨by decide, by decide +kernel, by decide +kernel, by decide +kernel,
        by decide +kernel, by decide +kernel, by decide +kernel, by decide +kernel,
        by decide +kernel⟩).2 (by decide +kernel)

end DominionSilver
