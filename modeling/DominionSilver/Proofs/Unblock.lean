import DominionSilver.Proofs.Cancel
import DominionSilver.Proofs.Fits
import DominionSilver.Proofs.Proposals
import DominionSilver.Proofs.Repricing

/-! The queue never blocks. The admin or a single guardian empties any queue with
one cancel an account, and what that leaves is the state as if nothing had been
queued. A propose that the queue refuses needs but one cancel: after it the same
call is accepted, and from its due time on it executes. -/

namespace DominionSilver

open Checked Bytes Tokens

section Clearing

variable {rt : Runtime} {w w' w'' : World}

theorem Requeued.trans (h : Requeued w w') (h' : Requeued w' w'') : Requeued w w'' := by
  obtain ⟨_, _, _, _, rfl⟩ := h
  obtain ⟨timelocks, pendingNonce, mintPausedUntil, activeProposalCount, rfl⟩ := h'
  exact ⟨timelocks, pendingNonce, mintPausedUntil, activeProposalCount, rfl⟩

theorem Requeued.authorized {signer : Pubkey} {supplies : Bool} (h : Requeued w w')
    (ha : Authorized supplies signer w) : Authorized supplies signer w' := by
  obtain ⟨_, _, _, _, rfl⟩ := h
  exact ha

theorem registrySound_of_reachable (h : Reachable rt w) : RegistrySound w := by
  obtain ⟨now₀, w₀, es, h₀, run⟩ := h
  obtain ⟨hl, hs⟩ := notices_initial h₀
  exact .of_queue (run.invariant (queueSound_initial h₀) QueueSound.step)
    (Registry.history_of_run hl hs (refines h₀ run)).sound

theorem frontRunWindow_of_reachable (h : Reachable rt w) : FrontRunWindow w := by
  obtain ⟨now₀, w₀, es, h₀, run⟩ := h
  exact (run.invariant (I := fun w => QueueSound w ∧ FrontRunWindow w)
    ⟨queueSound_initial h₀, frontRunWindow_initial h₀⟩
    fun ⟨hq, hw⟩ hs => ⟨hq.step hs, hw.step hq hs⟩).2

theorem Reachable.append {es : List Entry} (h : Reachable rt w) (run : Run rt w es w') :
    Reachable rt w' := by
  obtain ⟨now₀, w₀, es₀, h₀, run₀⟩ := h
  exact ⟨now₀, w₀, es₀ ++ es, h₀, run₀.append run⟩

theorem Reachable.snoc {e : Event} (h : Reachable rt w) (hs : Step rt w e w') : Reachable rt w' :=
  h.append (Trace.nil.snoc hs)

/-- The state with nothing queued. -/
def World.unqueued (w : World) : World :=
  { w with
    timelocks := ∅
    config := { w.config with
      pendingNonce := fun _ => none, mintPausedUntil := 0, activeProposalCount := 0 } }

theorem eq_unqueued (h : Reachable rt w) (hempty : w.timelocks = ∅) : w = w.unqueued := by
  have hsound := registrySound_of_reachable h
  have hslots : w.config.pendingNonce = fun _ => none := by
    funext k
    by_contra hk
    obtain ⟨n, hn⟩ := Option.ne_none_iff_exists'.1 hk
    obtain ⟨tl, hl, -⟩ := hsound.slots k n hn
    rw [hempty, Finmap.lookup_empty] at hl
    cases hl
  have hpause := (frontRunWindow_of_reachable h).idle (by rw [hslots])
  have hcount : w.config.activeProposalCount = 0 := by
    rw [← UInt8.toNat_inj, hsound.counted, hempty]
    rfl
  obtain ⟨config, timelocks, guardians, feeExempts, kycs, silvMint, usdcDecimals, usdc, silv⟩ := w
  dsimp only at hslots hpause hcount hempty
  subst hempty
  unfold World.unqueued
  rw [← hslots, ← hpause, ← hcount]

theorem Requeued.unqueued (h : Requeued w w') : w'.unqueued = w.unqueued := by
  obtain ⟨_, _, _, _, rfl⟩ := h
  rfl

variable {signer : Pubkey} {supplies : Bool}

/-- The step cancels one account. -/
def CancelledBy (signer : Pubkey) (supplies : Bool) (t : ℤ) (r : Entry) : Prop :=
  ∃ c n rent, r.event = .call c ∧ c.now = t ∧ c.signer = signer ∧
    c.ix = .cancelTimelockedAction n supplies rent

/-- The admin or one guardian empties the queue, at any time and whatever is queued, with one cancel
an account, hence with at most ten, and what that leaves is the state with nothing queued. -/
theorem queue_clears (h : Reachable rt w) (hs : rt.canSign signer = true)
    (hauth : Authorized supplies signer w) {t : ℤ} (ht : I64 t) :
    ∃ es, Run rt w es w.unqueued ∧ es.length = w.config.activeProposalCount.toNat ∧
      es.length ≤ 10 ∧ ∀ r ∈ es, CancelledBy signer supplies t r := by
  have hcounted := (registrySound_of_reachable h).counted
  have hbounded := UInt8.le_iff_toNat_le.1 (registrySound_of_reachable h).bounded
  have h10 : (MAX_ACTIVE_PROPOSALS : UInt8).toNat = 10 := rfl
  generalize hm : w.config.activeProposalCount.toNat = m at hcounted hbounded ⊢
  induction m generalizing w with
  | zero =>
    have hempty : w.timelocks = ∅ := by
      refine Finmap.ext_lookup fun n => ?_
      rw [Finmap.lookup_empty, Finmap.lookup_eq_none, ← Finmap.mem_keys,
        Finset.card_eq_zero.1 hcounted.symm]
      exact Finset.notMem_empty n
    have hsame := eq_unqueued h hempty
    exact ⟨[], hsame ▸ .nil, rfl, Nat.zero_le 10, List.forall_mem_nil _⟩
  | succ m ih =>
    obtain ⟨n, hn⟩ := Finset.card_pos.1 (by omega : 0 < w.timelocks.keys.card)
    obtain ⟨tl, hl⟩ := Finmap.mem_iff.1 (Finmap.mem_keys.1 hn)
    obtain ⟨hq, hlive⟩ := live_of_reachable h
    obtain ⟨change, -, hk, -, -⟩ := hq.queued n tl hl
    let c : Call := ⟨t, ht, signer, .cancelTimelockedAction n supplies tl.rentPayer⟩
    obtain ⟨w₁, hexec⟩ := cancel_ok (c := c) hq hlive hl hs hauth rfl
    have hexact := cancelExact_of_effect hq hl hk (effect_of_exec hexec).2
    have hstep : Step rt w (.call c) w₁ := hexec
    have hcount := hexact.count
    have hcounted₁ := (registrySound_of_reachable (h.snoc hstep)).counted
    obtain ⟨es, run, hlen, hle, hall⟩ := ih (h.snoc hstep) (hexact.frame.authorized hauth)
      (by omega) (by omega) (by omega)
    rw [hexact.frame.unqueued] at run
    refine ⟨_, (Trace.nil.snoc hstep).append run, ?_, ?_, ?_⟩
    · simp only [List.nil_append, List.singleton_append, List.length_cons, hlen]
    · simp only [List.nil_append, List.singleton_append, List.length_cons, hlen]
      omega
    · intro r hr
      rcases List.mem_cons.1 hr with rfl | hr
      · exact ⟨c, n, tl.rentPayer, rfl, rfl, rfl, rfl⟩
      · exact hall r hr

/-- The guardian clears the float and the feed of `queueCalls`. -/
theorem queue_clears_queueCalls :
    ∃ es, Run Reference.runtime
        (Reference.final Reference.runtime Reference.start (queueCalls.take 2)) es
        (Reference.final Reference.runtime Reference.start (queueCalls.take 2)).unqueued ∧
      es.length = 2 := by
  obtain ⟨es, run, hlen, -⟩ := @queue_clears Reference.runtime _ Reference.guardian true
    (@Reference.reachable_final (queueCalls.take 2) (by decide +kernel)) (by decide)
    ⟨some ⟨Reference.guardian, 1000, 0, 0, false⟩, by decide +kernel, by decide +kernel⟩ 4000
    (by unfold I64; decide)
  have htwo : (Reference.final Reference.runtime Reference.start
      (queueCalls.take 2)).config.activeProposalCount.toNat = 2 := by decide +kernel
  exact ⟨es, run, hlen.trans htwo⟩

end Clearing

section Refused

/-- The queue refuses: the slot is taken, or ten are queued. -/
def QueueError (d : DominionError) : Prop :=
  d = .proposalAlreadyActive ∨ d = .tooManyActiveProposals

/-- What the checks of a propose handler have in common: they do not look at the queue, do not end
with its errors, and pass only what can be encoded. -/
structure Checks (change : Change) (check : ConfigAccount → Result Unit) : Prop where
  apart : ∀ c d, QueueError d → check c ≠ .error (.dominion d)
  validated : ∀ c, check c = .ok () → change.Validated
  congr : ∀ {w w'}, Requeued w w' → check w'.config = check w.config

theorem checks_premiumMint (newBps : UInt16) : ∃ check, Checks (.premiumMint newBps) check ∧
    proposeSetPremiumMintHandler newBps = fun now admin w =>
      propose (.premiumMint newBps) check now admin w >>= fun w' =>
        pure { w' with config := { w'.config with
          mintPausedUntil := now + w.config.adminTimelockSeconds.toNat } } := by
  refine ⟨_, ?_, rfl⟩
  refine ⟨?_, fun _ _ => trivial, ?_⟩
  · rintro c d (rfl | rfl) <;> simp [bind_error, require_error]
  · rintro w w' ⟨_, _, _, _, rfl⟩
    rfl

theorem checks_of_kind {change : Change} (hk : change.kind ≠ .setPremiumMint) :
    ∃ check, Checks change check ∧ proposeHandler change = propose change check := by
  cases change with
  | premiumMint newBps => exact absurd rfl hk
  | metadata args =>
    simp only [proposeHandler]
    refine ⟨_, ?_, rfl⟩
    refine ⟨?_, fun _ h => h, fun _ => rfl⟩
    rintro c d (rfl | rfl) <;>
      simp [validateMetadataArgs, validateMetadataField, bind_error, require_error,
        requireSome_error]
  | _ =>
    simp only [proposeHandler]
    refine ⟨_, ?_, rfl⟩
    refine ⟨?_, fun _ _ => trivial, ?_⟩
    · rintro c d (rfl | rfl) <;>
        simp [RedeemLimitsArgs.validateCeilings, bind_error, require_error, requireSome_error]
    · rintro w w' ⟨_, _, _, _, rfl⟩
      rfl

variable {rt : Runtime} {w w' : World} {change : Change} {check : ConfigAccount → Result Unit}
  {now : ℤ} {admin : Pubkey} {d : DominionError}

theorem passed_of_refused (hc : Checks change check) (hd : QueueError d)
    (h : propose change check now admin w = .error (.dominion d)) :
    w.config.admin = admin ∧ w.timelocks.lookup w.config.nextTimelockNonce = none ∧
      check w.config = .ok () := by
  have hapart := hc.apart w.config d hd
  simp only [propose, requireAdmin, constrain, bind_error, guardOr_error, guardOr_ok, reduceCtorEq,
    and_false, false_or, hapart, exists_unit] at h
  exact ⟨h.1, h.2.1, h.2.2.1⟩

theorem propose_accepts (hc : Checks change check) (hadmin : w.config.admin = admin)
    (hunused : w.timelocks.lookup w.config.nextTimelockNonce = none)
    (hcheck : check w.config = .ok ()) (hfree : w.config.pendingNonce change.kind = none)
    (hroom : w.config.activeProposalCount < MAX_ACTIVE_PROPOSALS)
    (hdue : I64 (now + w.config.adminTimelockSeconds.toNat))
    (hnonce : w.config.nextTimelockNonce.toNat + 1 < 2 ^ 64) :
    ∃ w', propose change check now admin w = .ok w' := by
  obtain ⟨data, hdata⟩ := encode_of_validated (hc.validated _ hcheck)
  have hcount := UInt8.lt_iff_toNat_lt.1 hroom
  have h10 : MAX_ACTIVE_PROPOSALS.toNat = 10 := rfl
  obtain ⟨next, hnext⟩ := exists_checkedAdd (a := w.config.nextTimelockNonce) (b := 1) hnonce
  obtain ⟨count, hadded⟩ := exists_checkedAdd (a := w.config.activeProposalCount) (b := 1) (by
    change w.config.activeProposalCount.toNat + 1 < 256
    omega)
  simp only [propose, bind_ok, requireAdmin_ok, constrain_ok, require_ok, orOverflow_ok,
    checkedI64_eq_some, exists_unit, pure_ok]
  exact ⟨_, hadmin, hunused, hcheck, hfree, hroom, _, ⟨hdue, rfl⟩, data, hdata, next, hnext, count,
    hadded, rfl⟩

theorem proposeHandler_error (change : Change) : ∃ check, Checks change check ∧
    (∀ now admin w e, proposeHandler change now admin w = .error e →
      propose change check now admin w = .error e) ∧
    ∀ now admin w, (∃ w', propose change check now admin w = .ok w') →
      ∃ w', proposeHandler change now admin w = .ok w' := by
  by_cases hk : change.kind = .setPremiumMint
  · obtain ⟨newBps, rfl⟩ := exists_premiumMint hk
    obtain ⟨check, hc, he⟩ := checks_premiumMint newBps
    refine ⟨check, hc, fun now admin w e h => ?_, fun now admin w ⟨w', h⟩ => ?_⟩
    · simpa only [proposeHandler, he, bind_error, pure, Except.pure, reduceCtorEq, and_false,
        exists_false, or_false] using h
    · simp only [proposeHandler, he, bind_ok, pure_ok]
      exact ⟨_, w', h, rfl⟩
  · obtain ⟨check, hc, he⟩ := checks_of_kind hk
    exact ⟨check, hc, fun now admin w e h => he ▸ h, fun now admin w h => he ▸ h⟩

theorem exists_culprit (hw : Reachable rt w) (hfull : ¬ (w.config.pendingNonce change.kind = none ∧
      w.config.activeProposalCount < MAX_ACTIVE_PROPOSALS)) :
    ∃ n tl, w.timelocks.lookup n = some tl ∧
      ∀ k w₁, tl.actionDisc = TimelockAction.disc k → CancelExact rt k n w w₁ →
        w₁.config.pendingNonce change.kind = none := by
  have hsound := registrySound_of_reachable hw
  cases hslot : w.config.pendingNonce change.kind with
  | some n =>
    obtain ⟨tl, hl, -, hdisc⟩ := hsound.slots _ n hslot
    refine ⟨n, tl, hl, fun k w₁ hk hexact => ?_⟩
    obtain rfl := TimelockAction.disc_injective (hk.symm.trans hdisc)
    rw [hexact.slots, if_pos ⟨rfl, hslot⟩]
  | none =>
    have hcount := hsound.counted
    have hten : ¬ w.config.activeProposalCount.toNat < 10 := fun hlt =>
      hfull ⟨hslot, UInt8.lt_iff_toNat_lt.2 hlt⟩
    obtain ⟨n, hn⟩ := Finset.card_pos.1 (show 0 < w.timelocks.keys.card by omega)
    obtain ⟨tl, hl⟩ := Finmap.mem_iff.1 (Finmap.mem_keys.1 hn)
    refine ⟨n, tl, hl, fun k w₁ _ hexact => ?_⟩
    rw [hexact.slots, hslot, ite_self]

theorem CancelExact.room {k : TimelockAction} {n : UInt64} (h : CancelExact rt k n w w')
    (hw : w.config.activeProposalCount ≤ MAX_ACTIVE_PROPOSALS) :
    w'.config.activeProposalCount < MAX_ACTIVE_PROPOSALS := by
  have hcount := h.count
  have hbounded := UInt8.le_iff_toNat_le.1 hw
  rw [UInt8.lt_iff_toNat_lt]
  omega

theorem CancelExact.unused {k : TimelockAction} {n m : UInt64} (h : CancelExact rt k n w w')
    (hm : w.timelocks.lookup m = none) : w'.timelocks.lookup m = none := by
  rw [h.closed, Finmap.lookup_eq_none, ← Finmap.mem_keys, Finmap.keys_erase]
  exact fun hmem => Finmap.lookup_eq_none.1 hm (Finmap.mem_keys.1 (Finset.mem_of_mem_erase hmem))

theorem Requeued.same (h : Requeued w w') : w'.config.admin = w.config.admin ∧
    w'.config.nextTimelockNonce = w.config.nextTimelockNonce ∧
    w'.config.adminTimelockSeconds = w.config.adminTimelockSeconds := by
  obtain ⟨_, _, _, _, rfl⟩ := h
  exact ⟨rfl, rfl, rfl⟩

theorem executable_of_armed {n : UInt64} {due : ℤ} {payer : Pubkey} (hb : Bounded w.config)
    (hk : change.kind ≠ .withdrawUsdc) (ha : Armed n change due payer w) :
    Executable rt n change due payer w := by
  obtain ⟨data, hd, at', hl⟩ := ha.stored
  refine ⟨⟨_, hl, rfl, decodeChange_encode hd⟩, ?_⟩
  intro p ata m hix hadmin hsign hdue hpaused hm
  exact exec_of_armed ha hb hk hix hadmin hsign hdue hpaused hm

/-- Where the queue refuses a propose, some one account of it is in the way: once the admin or a
guardian has cancelled that, the same call is accepted, and from its due time on it executes. -/
theorem one_cancel_unblocks {c : Call} (hw : Reachable rt w) (hix : c.ix = .propose change)
    (hd : QueueError d) (hrefused : exec rt c w = .error (.dominion d))
    (hdue : I64 (c.now + w.config.adminTimelockSeconds.toNat))
    (hnonce : w.config.nextTimelockNonce.toNat + 1 < 2 ^ 64) :
    ∃ n tl, w.timelocks.lookup n = some tl ∧ ∀ p supplies, rt.canSign p.signer = true →
      Authorized supplies p.signer w → p.ix = .cancelTimelockedAction n supplies tl.rentPayer →
      ∃ w₁ w₂, exec rt p w = .ok w₁ ∧ exec rt c w₁ = .ok w₂ ∧
        (change.kind ≠ .withdrawUsdc → Executable rt w.config.nextTimelockNonce change
          (c.now + w.config.adminTimelockSeconds.toNat) c.signer w₂) := by
  obtain ⟨check, hc, herror, haccepts⟩ := proposeHandler_error change
  simp only [exec, hix, dispatch, constrain, bind_error, guardOr_error, guardOr_ok, reduceCtorEq,
    and_false, false_or, exists_unit] at hrefused
  obtain ⟨hsign, hrefused⟩ := hrefused
  have hrefused := herror _ _ _ _ hrefused
  obtain ⟨hadmin, hunused, hcheck⟩ := passed_of_refused hc hd hrefused
  have hfull : ¬ (w.config.pendingNonce change.kind = none ∧
      w.config.activeProposalCount < MAX_ACTIVE_PROPOSALS) := by
    rintro ⟨hfree, hroom⟩
    obtain ⟨w', haccepted⟩ := propose_accepts hc hadmin hunused hcheck hfree hroom hdue hnonce
    rw [hrefused] at haccepted
    cases haccepted
  obtain ⟨n, tl, hl, hfrees⟩ := exists_culprit hw hfull
  refine ⟨n, tl, hl, fun p supplies hp hauth hpix => ?_⟩
  obtain ⟨hq, hlive⟩ := live_of_reachable hw
  obtain ⟨queued, -, hk, -, -⟩ := hq.queued n tl hl
  obtain ⟨w₁, hcancel⟩ := cancel_ok hq hlive hl hp hauth hpix
  have hexact := cancelExact_of_effect hq hl hk (effect_of_call hcancel hpix)
  have hb₁ : Bounded w₁.config := (bounded_of_reachable hw).step (e := .call p) hcancel
  obtain ⟨hadmin₁, hnext₁, hdelay₁⟩ := hexact.frame.same
  have hcheck₁ := (hc.congr hexact.frame).trans hcheck
  have hroom := hexact.room (registrySound_of_reachable hw).bounded
  obtain ⟨w₂, hok⟩ := haccepts _ _ _ (propose_accepts hc (hadmin₁.trans hadmin)
    (hnext₁ ▸ hexact.unused hunused) hcheck₁ (hfrees _ _ hk hexact) hroom (by rwa [hdelay₁])
    (by rwa [hnext₁]))
  have hexec : exec rt c w₁ = .ok w₂ := by
    simp only [exec, hix, dispatch, bind_ok, constrain_ok, exists_unit]
    exact ⟨hsign, hok⟩
  refine ⟨w₁, w₂, hcancel, hexec, fun hne => ?_⟩
  rw [← hnext₁, ← hdelay₁]
  exact executable_of_armed (hb₁.step (e := .call c) hexec) hne (armed_of_propose hb₁ hexec hix hne)

end Refused

/-- A second float is refused while the first is queued, and accepted once that is cancelled. -/
theorem one_cancel_unblocks_proposeFloat :
    ∃ n tl, (Reference.next Reference.runtime Reference.start
        Reference.proposeFloat).timelocks.lookup n = some tl ∧
      ∀ p supplies, Reference.runtime.canSign p.signer = true →
        Authorized supplies p.signer
          (Reference.next Reference.runtime Reference.start Reference.proposeFloat) →
        p.ix = .cancelTimelockedAction n supplies tl.rentPayer →
        ∃ w₁ w₂, exec Reference.runtime p
            (Reference.next Reference.runtime Reference.start Reference.proposeFloat) = .ok w₁ ∧
          exec Reference.runtime
            (Reference.callAt 3001 Reference.admin (.propose (.treasuryFloat 9))) w₁ = .ok w₂ := by
  have hreach : Reachable Reference.runtime
      (Reference.next Reference.runtime Reference.start Reference.proposeFloat) :=
    @Reference.reachable_final [Reference.proposeFloat] (by decide +kernel)
  obtain ⟨n, tl, hl, hcancel⟩ := one_cancel_unblocks
    (c := Reference.callAt 3001 Reference.admin (.propose (.treasuryFloat 9))) hreach rfl
    (.inl rfl) rfl (by unfold I64; decide +kernel) (by decide +kernel)
  refine ⟨n, tl, hl, fun p supplies hp hauth hix => ?_⟩
  obtain ⟨w₁, w₂, h₁, h₂, -⟩ := hcancel p supplies hp hauth hix
  exact ⟨w₁, w₂, h₁, h₂⟩

end DominionSilver
