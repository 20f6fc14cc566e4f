import DominionSilver.Proofs.Timelock

/-! Cancelling a timelocked action. A cancel always goes through, closes its own account, empties its
own slot and changes nothing else, whatever else is queued. -/

namespace DominionSilver

open Checked Bytes Tokens

section Frame

variable {ε α β : Type}

theorem bind_isOk {x : Except ε α} {f : α → Except ε β} :
    (x >>= f).isOk = true ↔ ∃ a, x = .ok a ∧ (f a).isOk = true := by
  cases x with
  | error e => simp [bind, Except.bind, Except.isOk, Except.toBool]
  | ok a => simp [bind, Except.bind]

theorem pure_isOk {a : α} : (pure a : Except ε α).isOk = true := rfl

variable {rt : Runtime} {w w' : World}

/-- The two states differ at most in the queue, its slots and its counter, and the pause of mints. -/
def Requeued (w w' : World) : Prop :=
  ∃ timelocks pendingNonce mintPausedUntil activeProposalCount,
    w' = { w with
      timelocks
      config := { w.config with pendingNonce, mintPausedUntil, activeProposalCount } }

theorem Requeued.effectOf_isOk (h : Requeued w w') (ata : Pubkey) (k : TimelockAction)
    (data : List UInt8) :
    (effectOf rt ata k data w').isOk = true ↔ (effectOf rt ata k data w).isOk = true := by
  obtain ⟨timelocks, pendingNonce, mintPausedUntil, activeProposalCount, rfl⟩ := h
  cases k <;>
    simp only [effectOf, premiumMintEffect, premiumRedeemEffect, withdrawUsdcEffect,
      treasuryMinFloatEffect, oracleGuardsEffect, metadataEffect, complianceModeEffect,
      pythFeedEffect, adminTimelockEffect, redeemLimitsEffect, publicMintEffect,
      inventoryWalletEffect, ConfigAccount.assertPremiumWithinBounds, bind_isOk, pure_isOk]

theorem openTimelock_congr {k : TimelockAction} {m : UInt64} {now : ℤ} {admin rent : Pubkey}
    (h : Requeued w w') (hl : w'.timelocks.lookup m = w.timelocks.lookup m)
    (hs : w'.config.pendingNonce k = some m ↔ w.config.pendingNonce k = some m) :
    openTimelock k m now admin rent w' = openTimelock k m now admin rent w := by
  obtain ⟨timelocks, pendingNonce, mintPausedUntil, activeProposalCount, rfl⟩ := h
  simp only [openTimelock, requireAdmin, hl, hs]

theorem Requeued.execute_isOk {c : Call} {k : TimelockAction} {m : UInt64} {rent ata : Pubkey}
    (h : Requeued w w') (hl : w'.timelocks.lookup m = w.timelocks.lookup m)
    (hs : w'.config.pendingNonce k = some m ↔ w.config.pendingNonce k = some m)
    (hix : c.ix = .execute k m rent ata) :
    (exec rt c w').isOk = true ↔ (exec rt c w).isOk = true := by
  simp only [exec, hix, dispatch, executeHandler_eq, execute, bind_isOk, pure_isOk, and_true,
    openTimelock_congr h hl hs]
  refine exists_congr fun _ => and_congr_right fun _ => exists_congr fun tl =>
    and_congr_right fun _ => ?_
  have hok : ∀ w, (∃ v, effectOf rt ata k tl.actionData w = .ok v) ↔
      (effectOf rt ata k tl.actionData w).isOk = true := fun w => by
    cases effectOf rt ata k tl.actionData w <;> simp [Except.isOk, Except.toBool]
  rw [hok, hok]
  exact h.effectOf_isOk ata k tl.actionData

end Frame

section Refusal

/-- The error of a kind that has a live proposal already. -/
abbrev proposalAlreadyActive : Error := .dominion .proposalAlreadyActive

theorem encode_ne (change : Change) : change.encode ≠ .error proposalAlreadyActive := by
  cases change <;> simp [Change.encode, serializeArgs, bind_error, okOr_error, pure, Except.pure]

/-- A change whose slot is empty may be refused, but never for a live proposal of its kind. -/
theorem propose_ne {rt : Runtime} {w : World} {c : Call} {change : Change}
    (hix : c.ix = .propose change) (hfree : w.config.pendingNonce change.kind = none) :
    exec rt c w ≠ .error proposalAlreadyActive := by
  intro h
  simp only [exec, hix, dispatch, constrain, bind_error, guardOr_error, reduceCtorEq, and_false,
    false_or] at h
  obtain ⟨-, -, h⟩ := h
  cases change <;>
    simp [proposeHandler, proposeSetPremiumMintHandler, proposeSetPremiumRedeemHandler,
      proposeWithdrawUsdcHandler, proposeSetPublicMintHandler, proposeSetInventoryWalletHandler,
      proposeSetComplianceModeHandler, proposeSetOracleGuardsHandler,
      proposeSetRedeemLimitsHandler, proposeSetTreasuryMinFloatHandler,
      proposeSetAdminTimelockHandler, proposeSetPythFeedHandler, proposeUpdateMetadataHandler,
      propose, RedeemLimitsArgs.validateCeilings, validateMetadataArgs, validateMetadataField,
      requireAdmin, constrain, bind_error, guardOr_error, requireSome_error, encode_ne, hfree, pure,
      Except.pure] at h

end Refusal

section Cancel

variable {rt : Runtime} {w w' : World} {n : UInt64}

/-- No account is kept past its execution or cancel. -/
def Live (w : World) : Prop :=
  ∀ n tl, w.timelocks.lookup n = some tl → tl.cancelled = false ∧ tl.executedAt = none

theorem Live.erase {w w' : World} (hw : Live w) (h : w'.timelocks = w.timelocks.erase n) :
    Live w' := by
  unfold Live
  rw [h]
  exact Accounts.forall_erase hw

theorem Live.effect {now : ℤ} {signer : Pubkey} {ix : Instruction} (hw : Live w)
    (h : Effect rt now signer w ix w') : Live w' := by
  cases h with
  | propose queued => exact Accounts.forall_insert hw ⟨rfl, rfl⟩
  | execute _ _ _ applied =>
    exact hw.erase (by rw [closeTimelock, (queue_of_applied applied).1])
  | cancelTimelockedAction => exact hw.erase rfl
  | _ => exact hw

theorem live_of_reachable (h : Reachable rt w) : QueueSound w ∧ Live w := by
  obtain ⟨now, w₀, es, h₀, run⟩ := h
  have hq : QueueSound w := run.invariant (queueSound_initial h₀) QueueSound.step
  refine ⟨hq, invariant_of_reachable (I := Live) ?_ Live.effect ?_ ⟨now, w₀, es, h₀, run⟩⟩
  · intro now w h
    obtain ⟨args, g, t, m, d⟩ := deployed_of_initialized h
    obtain ⟨usdc, -, rfl⟩ := d.state
    intro n tl hl
    simp at hl
  · intro w w' hw he n tl hl
    exact hw n tl (he.timelocks ▸ hl)

/-- What the cancel of the action `n` of kind `k` changes, and that it changes nothing else. -/
structure CancelExact (rt : Runtime) (k : TimelockAction) (n : UInt64) (w w' : World) : Prop where
  frame : Requeued w w'
  closed : w'.timelocks = w.timelocks.erase n
  count : w'.config.activeProposalCount.toNat + 1 = w.config.activeProposalCount.toNat
  slots : ∀ j, w'.config.pendingNonce j =
    if j = k ∧ w.config.pendingNonce k = some n then none else w.config.pendingNonce j
  resumed : w'.config.mintPausedUntil =
    if k = .setPremiumMint ∧ w.config.pendingNonce k = some n then 0 else w.config.mintPausedUntil
  others : ∀ c j m rent ata, m ≠ n → c.ix = .execute j m rent ata →
    ((exec rt c w').isOk = true ↔ (exec rt c w).isOk = true)
  free : w.config.pendingNonce k = some n → ∀ c change, c.ix = .propose change →
    change.kind = k → exec rt c w' ≠ .error proposalAlreadyActive

theorem cancel_ok {c : Call} {suppliesGuardian : Bool} {tl : TimelockQueueAccount}
    (hq : QueueSound w) (hlive : Live w) (hl : w.timelocks.lookup n = some tl)
    (hs : rt.canSign c.signer = true) (hauth : Authorized suppliesGuardian c.signer w)
    (hix : c.ix = .cancelTimelockedAction n suppliesGuardian tl.rentPayer) :
    ∃ w', exec rt c w = .ok w' := by
  obtain ⟨guardian, hguardian, hmay⟩ := hauth
  obtain ⟨hcancelled, hexecuted⟩ := hlive n tl hl
  obtain ⟨change, hn, -, -, -⟩ := hq.queued n tl hl
  simp only [exec, hix, dispatch, cancelTimelockedHandler, bind_ok, constrain_ok, require_ok,
    existing_ok, exists_unit, pure_ok]
  exact ⟨_, hs, tl, hl, hcancelled, hexecuted, rfl, guardian, hguardian, hmay, hn, rfl⟩

theorem cancelExact_of_effect {now : ℤ} {signer rent : Pubkey} {suppliesGuardian : Bool}
    {tl : TimelockQueueAccount} {k : TimelockAction} (hq : QueueSound w)
    (hl : w.timelocks.lookup n = some tl) (hk : tl.actionDisc = k.disc)
    (h : Effect rt now signer w (.cancelTimelockedAction n suppliesGuardian rent) w') :
    CancelExact rt k n w w' := by
  cases h with
  | @cancelTimelockedAction _ _ _ _ pendingNonce mintPausedUntil found _ _ _ _ _ slots resumed =>
    obtain rfl := Option.some.inj (hl.symm.trans found)
    rw [hk, TimelockAction.ofDisc?_disc] at slots
    have hslots : ∀ j, pendingNonce j =
        if j = k ∧ w.config.pendingNonce k = some n then none else w.config.pendingNonce j := by
      intro j
      rw [slots]
      by_cases hn : w.config.pendingNonce k = some n
      · simp only [hn, if_true, and_true, Function.update_apply]
      · simp only [hn, if_false, and_false]
    have hcard := Accounts.card_erase_add_one hl
    have hcount := hq.counted
    have hsub := toNat_saturatingSub w.config.activeProposalCount 1
    simp only [word_uint8, UInt8.toNat_one] at hsub
    refine ⟨⟨_, _, _, _, rfl⟩, rfl, ?_, hslots, ?_, ?_, ?_⟩
    · change (saturatingSub w.config.activeProposalCount 1).toNat + 1 = _
      omega
    · change mintPausedUntil = _
      simp only [resumed, hk, TimelockAction.disc_injective.eq_iff]
      exact if_congr (and_congr_right fun hpremium => by rw [hpremium]) rfl rfl
    · intro c j m rent ata hm hix
      refine Requeued.execute_isOk ⟨_, _, _, _, rfl⟩ (Finmap.lookup_erase_ne hm) ?_ hix
      change pendingNonce j = some m ↔ _
      rw [hslots]
      split_ifs with hj
      · -- the slot held the cancelled nonce
        rw [hj.1, hj.2, Option.some.injEq]
        exact ⟨nofun, fun e => absurd e.symm hm⟩
      · exact Iff.rfl
    · intro hn c change hix hkind
      refine propose_ne hix ?_
      change pendingNonce change.kind = none
      rw [hslots, if_pos ⟨hkind, hn⟩]

/-- In every reachable state the cancel of a live action by the admin or a guardian that may act
succeeds and is exact. -/
theorem cancel_exact (h : Reachable rt w) {tl : TimelockQueueAccount}
    (hl : w.timelocks.lookup n = some tl) :
    ∃ k, tl.actionDisc = TimelockAction.disc k ∧ ∀ c suppliesGuardian,
      rt.canSign c.signer = true → Authorized suppliesGuardian c.signer w →
      c.ix = .cancelTimelockedAction n suppliesGuardian tl.rentPayer →
      ∃ w', exec rt c w = .ok w' ∧ CancelExact rt k n w w' := by
  obtain ⟨hq, hlive⟩ := live_of_reachable h
  obtain ⟨change, -, hk, -, -⟩ := hq.queued n tl hl
  refine ⟨change.kind, hk, fun c suppliesGuardian hs hauth hix => ?_⟩
  obtain ⟨w', hexec⟩ := cancel_ok hq hlive hl hs hauth hix
  have he := (effect_of_exec hexec).2
  rw [hix] at he
  exact ⟨w', hexec, cancelExact_of_effect hq hl hk he⟩

/-- A close leaves the first proposal of new limits behind, and a second one takes its slot. -/
def orphanCalls : List Call :=
  [Reference.unpauseCall,
    Reference.callAt 3000 Reference.admin
      (.propose (.redeemLimits ⟨some 30000000000, none, none, none, none⟩)),
    Reference.callAt 3001 Reference.admin (.setRedemptionsEnabled false),
    Reference.callAt 3002 Reference.admin
      (.propose (.redeemLimits ⟨none, none, none, none, some true⟩))]

abbrev orphaned : World := Reference.final Reference.runtime Reference.start orphanCalls

/-- The guardian cancels the one left behind. -/
theorem cancel_exact_orphanCalls : ∃ k, ∃ w',
    exec Reference.runtime (Reference.callAt 3003 Reference.guardian
      (.cancelTimelockedAction 0 true Reference.admin)) orphaned = .ok w' ∧
    CancelExact Reference.runtime k 0 orphaned w' := by
  have hlive : (orphaned.timelocks.lookup 0).map (·.rentPayer) = some Reference.admin := by
    decide +kernel
  obtain ⟨tl, hl, hrent⟩ := Option.map_eq_some_iff.1 hlive
  obtain ⟨k, -, hcancel⟩ := cancel_exact (Reference.reachable_final (by decide +kernel)) hl
  exact ⟨k, hcancel _ true (by decide)
    ⟨some ⟨Reference.guardian, 1000, 0, 0, false⟩, by decide +kernel, by decide +kernel⟩
    (congrArg (Instruction.cancelTimelockedAction 0 true) hrent.symm)⟩

end Cancel

end DominionSilver
