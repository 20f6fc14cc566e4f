import DominionSilver.Proofs.Kyc
import DominionSilver.Proofs.Money
import DominionSilver.Proofs.Supply

/-! What a key can do. Without the signature of the admin, or of the admin to be,
no setting changes, nothing new is queued, nobody is appointed or exempted, and
money moves only as trades and deposits move it: a guardian can do no more than
brake, and the attestor no more than keep its roster. Without a guardian's
signature too the brakes stay as they are, and without the attestor's the roster. -/

namespace DominionSilver

open Checked Bytes Tokens

section Signers

/-- The admin of the time, or the one it has named to follow it, signs the step. -/
def adminSigns (r : Entry) : Bool :=
  match r.event with
  | .call c => c.signer = r.pre.config.admin || r.pre.config.pendingAdmin = some c.signer
  | .external => false

def guardianSigns (r : Entry) : Bool :=
  match r.event with
  | .call c => (r.pre.guardians.lookup c.signer).any (·.mayAct c.signer r.pre.config.admin)
  | .external => false

def attestorSigns (r : Entry) : Bool :=
  match r.event with
  | .call c => c.signer = r.pre.config.kycOperator
  | .external => false

variable {w w' : World} {c : Call}

theorem not_admin (h : adminSigns ⟨w, .call c, w'⟩ = false) :
    w.config.admin ≠ c.signer ∧ w.config.pendingAdmin ≠ some c.signer := by
  simp only [adminSigns, Bool.or_eq_false_iff, decide_eq_false_iff_not] at h
  exact ⟨Ne.symm h.1, h.2⟩

/-- Where neither the admin nor a guardian signs, nothing that asks for one of them is let in. -/
theorem not_authorized {supplies : Bool} (ha : adminSigns ⟨w, .call c, w'⟩ = false)
    (hg : guardianSigns ⟨w, .call c, w'⟩ = false) : ¬ Authorized supplies c.signer w := by
  rintro ⟨guardian, hload, hauth⟩
  simp only [isAdminOrGuardian, Bool.or_eq_true, decide_eq_true_eq] at hauth
  rcases hauth with hadmin | hany
  · exact (not_admin ha).1 hadmin.symm
  · cases guardian with
    | none => cases hany
    | some g =>
      simp only [guardianSigns, optionalAccount_some hload] at hg
      rw [hg] at hany
      cases hany

end Signers

/-- The config without what trades, guardians and the attestor write. -/
def ConfigAccount.settings (c : ConfigAccount) : ConfigAccount :=
  { c with
    lastUsedFeedUpdateTimestampUs := 0, lastRecordedPriceScaled := 0, lastPriceUpdateAt := 0
    instantWindowStart := 0, instantUsedUsdc := 0, instantUsedPrevUsdc := 0
    paused := false, mintPausedUntil := 0, pendingNonce := fun _ => none
    activeProposalCount := 0
    pendingAdmin := none, pendingAdminEta := 0, pendingAdminExpiresAt := 0
    guardianCount := 0, pendingRemovalCount := 0, kycAttestationCount := 0, kycEnforced := false }

/-- What stays within `w` when the admin does not sign. -/
structure Confined (w w' : World) : Prop where
  settings : w'.config.settings = w.config.settings
  exempts : w'.feeExempts = w.feeExempts
  paused : w.config.paused = true → w'.config.paused = true
  slots : ∀ k n, w'.config.pendingNonce k = some n → w.config.pendingNonce k = some n
  queued : ∀ n tl, w'.timelocks.lookup n = some tl → w.timelocks.lookup n = some tl
  pendingAdmin : ∀ k, w'.config.pendingAdmin = some k → w.config.pendingAdmin = some k ∧
    w'.config.pendingAdminEta = w.config.pendingAdminEta
  guardians : ∀ k g', w'.guardians.lookup k = some g' → g'.mayAct k w'.config.admin = true →
    ∃ g, w.guardians.lookup k = some g ∧ g.mayAct k w.config.admin = true

namespace Confined

variable {w w' w'' : World}

theorem refl (w : World) : Confined w w :=
  ⟨rfl, rfl, id, fun _ _ => id, fun _ _ => id, fun _ h => ⟨h, rfl⟩, fun _ g h ha => ⟨g, h, ha⟩⟩

theorem trans (h : Confined w w') (h' : Confined w' w'') : Confined w w'' where
  settings := h'.settings.trans h.settings
  exempts := h'.exempts.trans h.exempts
  paused hp := h'.paused (h.paused hp)
  slots k n hk := h.slots k n (h'.slots k n hk)
  queued n tl hl := h.queued n tl (h'.queued n tl hl)
  pendingAdmin k hk := by
    obtain ⟨hk', heta'⟩ := h'.pendingAdmin k hk
    obtain ⟨hk, heta⟩ := h.pendingAdmin k hk'
    exact ⟨hk, heta'.trans heta⟩
  guardians k g'' hl ha := by
    obtain ⟨g', hl', ha'⟩ := h'.guardians k g'' hl ha
    exact h.guardians k g' hl' ha'

theorem of_kept (hs : w'.config.settings = w.config.settings) (he : w'.feeExempts = w.feeExempts)
    (hp : w'.config.paused = w.config.paused)
    (hn : w'.config.pendingNonce = w.config.pendingNonce) (ht : w'.timelocks = w.timelocks)
    (ha : w'.config.pendingAdmin = w.config.pendingAdmin)
    (heta : w'.config.pendingAdminEta = w.config.pendingAdminEta)
    (hg : w'.guardians = w.guardians) : Confined w w' where
  settings := hs
  exempts := he
  paused h := hp.trans h
  slots k n h := hn ▸ h
  queued n tl h := ht ▸ h
  pendingAdmin k h := ⟨ha ▸ h, heta⟩
  guardians k g h hact := by
    have hadmin := congrArg ConfigAccount.admin hs
    change w'.config.admin = w.config.admin at hadmin
    exact ⟨g, hg ▸ h, hadmin ▸ hact⟩

end Confined

section Steps

variable {rt : Runtime} {w w' : World} {e : Event}

theorem revocation_keeps_scope {scope : UInt8} {count : UInt32} {allowDisarm : Bool}
    {outcome : RevocationOutcome} (h : resolveRevocation scope count false allowDisarm =
      .ok outcome) : outcome.scopeAfter = scope := by
  rcases (resolveRevocation_ok h).2 with ⟨hkept, -⟩ | ⟨-, hadmin⟩
  · exact hkept
  · cases hadmin

theorem confined_of_effect {c : Call} (ha : adminSigns ⟨w, .call c, w'⟩ = false)
    (h : Effect rt c.now c.signer w c.ix w') : Confined w w' := by
  obtain ⟨now, hnow, signer, ix⟩ := c
  obtain ⟨hadmin, hpending⟩ := not_admin ha
  dsimp only at hadmin hpending h
  have hshrinks := queue_shrinks h
  cases h with
  | mintSilv | redeemSilv | depositUsdc | attestKyc =>
    exact .of_kept rfl rfl rfl rfl rfl rfl rfl rfl
  | revokeKyc _ _ _ resolved =>
    rw [decide_eq_false (Ne.symm hadmin)] at resolved
    have hscope := revocation_keeps_scope resolved
    refine .of_kept ?_ rfl rfl rfl rfl rfl rfl rfl
    simp only [ConfigAccount.settings, hscope]
  | pause => exact { Confined.refl w with paused := fun _ => rfl, settings := rfl }
  | @finalizeGuardianRemoval k g cooldownUntil _ _ found own active =>
    refine { Confined.refl w with settings := rfl, guardians := fun j g' hl hact => ?_ }
    by_cases hj : j = k
    · subst hj
      obtain rfl := Option.some.inj ((Finmap.lookup_insert _).symm.trans hl)
      refine ⟨g, found, ?_⟩
      simp only [GuardianAccount.mayAct, Bool.and_eq_true, decide_eq_true_eq] at hact ⊢
      exact ⟨⟨hact.1.1, active⟩, hact.2⟩
    · exact ⟨g', (Finmap.lookup_insert_of_ne _ hj).symm.trans hl, hact⟩
  | @cancelGuardianRemoval k g _ _ found =>
    refine { Confined.refl w with settings := rfl, guardians := fun j g' hl hact => ?_ }
    by_cases hj : j = k
    · subst hj
      obtain rfl := Option.some.inj ((Finmap.lookup_insert _).symm.trans hl)
      exact ⟨g, found, hact⟩
    · exact ⟨g', (Finmap.lookup_insert_of_ne _ hj).symm.trans hl, hact⟩
  | acceptAdminTransfer pending => exact absurd pending hpending
  | cancelAdminTransfer => exact { Confined.refl w with settings := rfl, pendingAdmin := nofun }
  | cancelTimelockedAction =>
    obtain ⟨hs, ht⟩ := hshrinks nofun
    exact { Confined.refl w with settings := rfl, slots := hs, queued := ht }
  | propose queued => exact absurd queued.admin hadmin
  | execute timelock => exact absurd timelock.admin hadmin
  | _ => exact absurd (by assumption) hadmin

theorem Confined.step (h : Step rt w e w') (ha : adminSigns ⟨w, e, w'⟩ = false) :
    Confined w w' := by
  rcases step_cases h with ⟨c, rfl, -, he⟩ | ⟨rfl, he⟩
  · exact confined_of_effect ha he
  · exact .of_kept (by rw [he.config]) he.feeExempts (by rw [he.config]) (by rw [he.config])
      he.timelocks (by rw [he.config]) (by rw [he.config]) he.guardians

/-- What the brakes hold: the pause, the queue, and the transfer of the admin. -/
def World.brakes (w : World) : Bool × ℤ × (TimelockAction → Option UInt64) ×
    Accounts UInt64 TimelockQueueAccount × Option Pubkey × ℤ × ℤ :=
  (w.config.paused, w.config.mintPausedUntil, w.config.pendingNonce, w.timelocks,
    w.config.pendingAdmin, w.config.pendingAdminEta, w.config.pendingAdminExpiresAt)

theorem brakes_step (h : Step rt w e w') (ha : adminSigns ⟨w, e, w'⟩ = false)
    (hg : guardianSigns ⟨w, e, w'⟩ = false) : w'.brakes = w.brakes := by
  rcases step_cases h with ⟨⟨now, hnow, signer, ix⟩, rfl, -, he⟩ | ⟨rfl, he⟩
  · obtain ⟨hadmin, hpending⟩ := not_admin ha
    have hnone : ∀ {supplies}, ¬ Authorized supplies signer w := not_authorized ha hg
    dsimp only at hadmin hpending he
    cases he with
    | mintSilv | redeemSilv | depositUsdc | attestKyc | revokeKyc | finalizeGuardianRemoval
    | cancelGuardianRemoval => rfl
    | pause auth => exact absurd auth hnone
    | acceptAdminTransfer pending => exact absurd pending hpending
    | cancelAdminTransfer auth => exact absurd auth hnone
    | cancelTimelockedAction _ _ _ _ auth => exact absurd auth hnone
    | propose queued => exact absurd queued.admin hadmin
    | execute timelock => exact absurd timelock.admin hadmin
    | _ => exact absurd (by assumption) hadmin
  · unfold World.brakes
    rw [he.config, he.timelocks]

/-- The approvals of the attestor. -/
def World.roster (w : World) : Accounts Pubkey KycAccount × UInt32 :=
  (w.kycs, w.config.kycAttestationCount)

theorem roster_step (h : Step rt w e w') (ha : adminSigns ⟨w, e, w'⟩ = false)
    (ht : attestorSigns ⟨w, e, w'⟩ = false) : w'.roster = w.roster := by
  rcases step_cases h with ⟨⟨now, hnow, signer, ix⟩, rfl, -, he⟩ | ⟨rfl, he⟩
  · obtain ⟨hadmin, hpending⟩ := not_admin ha
    have hattestor : signer ≠ w.config.kycOperator := of_decide_eq_false ht
    dsimp only at hadmin hpending he
    cases he with
    | attestKyc attestor => exact absurd attestor hattestor
    | revokeKyc revoker => exact (revoker.elim hattestor (Ne.symm hadmin)).elim
    | execute timelock => exact absurd timelock.admin hadmin
    | _ => rfl
  · unfold World.roster
    rw [he.config, he.kycs]

/-- Who does not sign as the admin takes from the treasury by redeeming only, from the fee vault
nothing, and adds to the supply by minting only. -/
theorem money_step (hv : Vaults rt w) (h : Step rt w e w')
    (ha : adminSigns ⟨w, e, w'⟩ = false) :
    w.feeVaultBalance rt ≤ w'.feeVaultBalance rt ∧
      (w'.treasuryBalance < w.treasuryBalance → ∃ c amountSilv minUsdcOut accounts,
        e = .call c ∧ c.ix = .redeemSilv amountSilv minUsdcOut accounts) ∧
      (w.silvMint.supply < w'.silvMint.supply → ∃ c amountUsdc minSilvOut accounts,
        e = .call c ∧ c.ix = .mintSilv amountUsdc minSilvOut accounts) := by
  refine ⟨?_, fun hlt => ?_, fun hlt => ?_⟩
  · by_contra hlt
    obtain ⟨c, amount, destination, rfl, hix⟩ := sweep_of_feeVault_lt hv h (not_le.1 hlt)
    cases effect_of_call h hix with
    | withdrawFees admin => exact (not_admin ha).1 admin
  · rcases redeem_or_withdrawal_of_treasury_lt hv h hlt with hredeem | ⟨c, n, rent, ata, rfl, hix⟩
    · exact hredeem
    · cases effect_of_call h hix with
      | execute timelock => exact absurd timelock.admin (not_admin ha).1
  · rcases step_cases h with ⟨⟨now, hnow, signer, ix⟩, rfl, -, he⟩ | ⟨rfl, he⟩
    · have hstill : ¬ w.silvMint.supply < w.silvMint.supply := UInt64.lt_irrefl _
      cases he with
      | mintSilv => exact ⟨_, _, _, _, rfl, rfl⟩
      | redeemSilv redeemed =>
        have hburned := (rt.tokens.burn_burned redeemed.burned).2.1
        rw [UInt64.lt_iff_toNat_lt] at hlt
        dsimp only at hlt
        omega
      | adminPremint admin => exact absurd admin (not_admin ha).1
      | execute timelock => exact absurd timelock.admin (not_admin ha).1
      | _ => exact absurd hlt hstill
    · exact absurd he.supply (UInt64.not_le.2 hlt)

end Steps

/-- In a run that neither the admin nor the one named to follow it signs, settings, exemptions,
queue and guardians gain nothing, and money moves by trades and deposits. A run that no guardian
signs either leaves every brake as it is, and one that the attestor does not sign the roster. -/
theorem keys_confined {rt : Runtime} {w w' : World} {es : List Entry} (hv : Vaults rt w)
    (run : Run rt w es w') (ha : ∀ r ∈ es, adminSigns r = false) :
    Confined w w' ∧ w.feeVaultBalance rt ≤ w'.feeVaultBalance rt ∧
      (∀ r ∈ es, r.post.treasuryBalance < r.pre.treasuryBalance →
        ∃ c amountSilv minUsdcOut accounts,
          r.event = .call c ∧ c.ix = .redeemSilv amountSilv minUsdcOut accounts) ∧
      (∀ r ∈ es, r.pre.silvMint.supply < r.post.silvMint.supply →
        ∃ c amountUsdc minSilvOut accounts,
          r.event = .call c ∧ c.ix = .mintSilv amountUsdc minSilvOut accounts) ∧
      ((∀ r ∈ es, guardianSigns r = false) → w'.brakes = w.brakes) ∧
      ((∀ r ∈ es, attestorSigns r = false) → w'.roster = w.roster) := by
  refine ⟨?_, ?_, ?_, ?_, fun hg => ?_, fun ht => ?_⟩
  · exact run.related Confined.refl Confined.trans trivial (fun _ _ => trivial)
      (fun _ => Confined.step) ha
  · exact run.related (R := fun w w' => w.feeVaultBalance rt ≤ w'.feeVaultBalance rt)
      (fun _ => le_rfl) le_trans hv Vaults.step (fun hv hs ha => (money_step hv hs ha).1) ha
  · intro r hr
    obtain ⟨_, hrun, hs⟩ := run.step_of_mem hr
    exact (money_step (hrun.invariant hv Vaults.step) hs (ha r hr)).2.1
  · intro r hr
    obtain ⟨_, hrun, hs⟩ := run.step_of_mem hr
    exact (money_step (hrun.invariant hv Vaults.step) hs (ha r hr)).2.2
  · exact run.related (R := fun w w' => w'.brakes = w.brakes)
      (p := fun r => adminSigns r = false ∧ guardianSigns r = false) (fun _ => rfl)
      (by intro a b c h h'; exact h'.trans h) trivial (fun _ _ => trivial)
      (fun _ hs hp => brakes_step hs hp.1 hp.2) fun r hr => ⟨ha r hr, hg r hr⟩
  · exact run.related (R := fun w w' => w'.roster = w.roster)
      (p := fun r => adminSigns r = false ∧ attestorSigns r = false) (fun _ => rfl)
      (by intro a b c h h'; exact h'.trans h) trivial (fun _ _ => trivial)
      (fun _ hs hp => roster_step hs hp.1 hp.2) fun r hr => ⟨ha r hr, ht r hr⟩

/-- The user redeems, and the guardian pauses. -/
def unadministered : List Call :=
  [Reference.redeemCall, Reference.callAt 3002 Reference.guardian (.pause true)]

theorem keys_confined_unadministered :
    Confined (Reference.final Reference.runtime Reference.start (Reference.tradeCalls.take 2))
        (Reference.final Reference.runtime (Reference.final Reference.runtime Reference.start
          (Reference.tradeCalls.take 2)) unadministered) :=
  (keys_confined
    (vaults_of_run Reference.initialized_start
      (@Reference.run_of_succeeds _ _ (Reference.tradeCalls.take 2) (by decide +kernel)))
    (@Reference.run_of_succeeds _ _ unadministered (by decide +kernel)) (by decide +kernel)).1

end DominionSilver
